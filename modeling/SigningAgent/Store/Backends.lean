import SigningAgent.Lib.Refinement
import SigningAgent.Store.FileStore
import SigningAgent.Store.Oci

/-!
# The stores behind `KVStore` (`internal/util/storefactory.go`)

`CreateStore` makes one of four stores, and the rest of the agent calls it through the interface
`KVStore`: `Init` once at its start, then `Get`, `Set` and `Del`. Here all four are one machine. The
external calls that fail are part of each call, and the process may be restarted between calls.

* `content` is the map that a store has outside the process: nothing for what does not decode, which
  includes a secret that is still to be initialised.
* `map` is what the interface promises: a map that answers each call, or a call that fails and does
  nothing.
* `Fine` is the condition on a call, which comes after a restart that succeeded. There is one for
  two of the stores: the write of `FileStore` lands (`Lands`), since it serves a value whose write
  has failed; `OciStore` does not take a failed read for an empty secret (`Swallowed`), and its
  `waitForSecret` comes to an end. `AWSStore` and `GCPStore` need none.

Results:
* **`stores_refine`**: whatever store is configured, and whatever it contains first but the JSON
  text `null`, in every run of restarts and calls that are fine the answers are those of one map.
* **`interchangeable_stores`**: two stores with the same content give the same answers to the same
  calls, as long as none of them fails.
-/

namespace SigningAgent.Store

open Refinement

/-! ## `AWSStore` and `GCPStore` with failures -/

/-- Which external calls of a `Get`, `Set`, `Del` or `Init` fail: the reads and the write. -/
structure RemoteAnswers where
  readFails : Bool
  writeFails : Bool
  deriving DecidableEq, Repr

namespace RemoteStore

variable {σ : Type} (st : RemoteStore σ)

/-- `getSecret`. -/
def read (a : RemoteAnswers) (s : σ) : Except RemoteError Data :=
  if a.readFails then .error .external else st.getSecret s

/-- `setSecret`, with the secret it leaves. -/
def write (a : RemoteAnswers) (data : Data) (s : σ) : Except RemoteError Unit × σ :=
  if a.writeFails then (.error .external, s)
  else match st.setSecret data s with
  | .error e => (.error e, s)
  | .ok s' => (.ok (), s')

/-- `Get`. -/
def get (a : RemoteAnswers) (key : String) (s : σ) : Except RemoteError Bytes :=
  getKey (st.read a) key s

/-- `Set` and `Del`. -/
def modify (a : RemoteAnswers) (op : Op) (s : σ) : Except RemoteError Unit × σ :=
  match readConfig (st.read a) s with
  | .error e => (.error e, s)
  | .ok cfg => st.write a (marshal (op.apply cfg)) s

end RemoteStore

/-- `SecretNotInitialised` and `GCPSecretNotInitialised`. -/
def secretNotInitialised : String := "initialise me"

/-- `AWSStore.initConnection`, after the session has been made. -/
def AWSStore.initConnection (a : RemoteAnswers) (s : AwsSecret) :
    Except RemoteError Unit × AwsSecret :=
  if a.readFails then (.error .external, s)
  else match s with
  | .secretString text =>
    if text = secretNotInitialised then awsStore.write a (marshal ∅) s
    else (.error .secretString, s)
  | .secretBinary _ => (.ok (), s)

/-- What a payload is that is not the JSON of a map. -/
inductive Payload where
  /-- other JSON -/
  | json
  /-- `GCPSecretNotInitialised` -/
  | notInitialised
  | other
  deriving DecidableEq, Repr

/-- `GCPStore.initConnection`, after the client has been made. -/
def GCPStore.initConnection (a : RemoteAnswers) (payload : Payload) (s : GcpSecret) :
    Except RemoteError Unit × GcpSecret :=
  match gcpStore.read a s with
  | .error e => (.error e, s)
  | .ok .empty | .ok (.json _) => (.ok (), s)
  | .ok .malformed =>
    match payload with
    | .json => (.ok (), s)
    | .notInitialised => gcpStore.write a (marshal ∅) s
    | .other => (.error .unmarshal, s)

/-- `OciStore.Del`. -/
def OciStore.del (f : Failures) (fuel : Nat) (key : String) (v : OciVault) :
    Option (Except RemoteError Unit) × OciVault :=
  match readConfig (OciStore.getSecret f) v with
  | .error e => (some (.error e), v)
  | .ok cfg => OciStore.setSecret f fuel (marshal ((Op.del key).apply cfg)) v

namespace Backends

/-! ## One machine -/

/-- What `CreateStore` makes by `cfg.Store.Type`, with what it works on. -/
inductive Backend where
  | file (s : File.State)
  | oci (v : OciVault)
  | aws (s : AwsSecret)
  | gcp (s : GcpSecret)

/-- The external calls of a call, for each store its own. -/
structure Answers where
  /-- the errors of `os.ReadFile` and `os.WriteFile` -/
  readErr : Option String
  writeErr : Option String
  oci : Failures
  /-- how often `waitForSecret` asks at most -/
  fuel : Nat
  /-- a client of `OciStore` cannot be made -/
  ociInit : Bool
  remote : RemoteAnswers
  payload : Payload

inductive Request where
  /-- the process starts again, with an `Init` -/
  | restart
  | get (key : String)
  | write (op : Op)
  deriving DecidableEq, Repr

inductive Reply where
  | value (data : Bytes)
  /-- `defs.ErrKVNotFound` -/
  | notFound
  /-- a nil error -/
  | done
  /-- any other error -/
  | failed
  deriving DecidableEq, Repr

structure Call where
  request : Request
  answers : Answers

/-- The store, and whether the process has come past its `Init`. -/
structure State where
  store : Backend
  opened : Bool

/-- The reply for the result of `Set`, `Del` or `Init`. -/
def Reply.ofUnit {ε : Type} : Except ε Unit → Reply
  | .ok () => .done
  | .error _ => .failed

/-- The reply for the error of `Set`, `Del` or `Init` of `FileStore`. -/
def Reply.ofError : Option File.FileError → Reply
  | none => .done
  | some _ => .failed

def Reply.ofFile : Except File.FileError Bytes → Reply
  | .ok data => .value data
  | .error .kvNotFound => .notFound
  | .error _ => .failed

def Reply.ofRemote : Except RemoteError Bytes → Reply
  | .ok data => .value data
  | .error .kvNotFound => .notFound
  | .error _ => .failed

/-- `OciStore` answers, or is still waiting. -/
def Reply.ofOci : Option (Except RemoteError Unit) → Reply
  | some r => .ofUnit r
  | none => .failed

namespace Backend

/-- `NewFileStore`, or the like, and `Init`. -/
def init (a : Answers) : Backend → Reply × Backend
  | .file s =>
    let (e, s) := File.initStore a.readErr a.writeErr (File.newFileStore s.file)
    (.ofError e, .file s)
  | .oci v => (if a.ociInit then .failed else .done, .oci v)
  | .aws s =>
    let (r, s) := AWSStore.initConnection a.remote s
    (.ofUnit r, .aws s)
  | .gcp s =>
    let (r, s) := GCPStore.initConnection a.remote a.payload s
    (.ofUnit r, .gcp s)

/-- `Get`. -/
def get (a : Answers) (key : String) : Backend → Reply
  | .file s => .ofFile (File.get key s)
  | .oci v => .ofRemote (OciStore.get a.oci key v)
  | .aws s => .ofRemote (awsStore.get a.remote key s)
  | .gcp s => .ofRemote (gcpStore.get a.remote key s)

/-- `Set` and `Del`. -/
def write (a : Answers) (op : Op) : Backend → Reply × Backend
  | .file s =>
    let (e, s) := File.Call.run ⟨op, a.writeErr⟩ s
    (.ofError e, .file s)
  | .oci v =>
    let (r, v) := match op with
      | .set key data => OciStore.set a.oci a.fuel key data v
      | .del key => OciStore.del a.oci a.fuel key v
    (.ofOci r, .oci v)
  | .aws s =>
    let (r, s) := awsStore.modify a.remote op s
    (.ofUnit r, .aws s)
  | .gcp s =>
    let (r, s) := gcpStore.modify a.remote op s
    (.ofUnit r, .gcp s)

end Backend

/-- A call, or a restart. -/
def machine : Machine State Call Reply where
  call c s :=
    match c.request with
    | .restart =>
      let (r, store) := s.store.init c.answers
      (r, ⟨store, r = .done⟩)
    | .get key => (s.store.get c.answers key, s)
    | .write op =>
      let (r, store) := s.store.write c.answers op
      (r, { s with store := store })

/-! ## One map -/

/-- What the interface promises. -/
def map : Spec KVMap Request Reply where
  apply
    | .restart, m => (.done, m)
    | .get key, m => (match m.lookup key with
      | some data => .value data
      | none => .notFound, m)
    | .write op, m => (.done, op.apply m)
  failed r := r = .failed

/-- The map in some bytes. -/
def decoded : Data → KVMap
  | .json m => m
  | .empty | .malformed => ∅

/-- The map that a store has outside the process. -/
def content : Backend → KVMap
  | .file s => (s.file.map decoded).getD ∅
  | .oci v => (v.secret.join.map decoded).getD ∅
  | .aws (.secretString _) => ∅
  | .aws (.secretBinary data) => decoded data
  | .gcp s => (s.head?.map decoded).getD ∅

/-- The memory of the process is what the file has. -/
def Synced : Backend → Prop
  | .file s => File.Saved s
  | _ => True

/-- The state stands for a map. -/
structure Holds (s : State) (m : KVMap) : Prop where
  content : content s.store = m
  synced : s.opened = true → Synced s.store

/-- The external calls of the call do not fail in a way that the store covers up. -/
def Answers.Sound (a : Answers) (request : Request) : Backend → Prop
  | .file s => match request with
    | .write op => File.Lands s ⟨op, a.writeErr⟩
    | _ => True
  | .oci v => (OciStore.Swallowed a.oci → content (.oci v) = ∅) ∧
      OciStore.waitForSecret a.oci.polls a.fuel = true
  | _ => True

/-- The condition on a call: see the header. -/
def Fine (s : State) (c : Call) : Prop :=
  c.request = .restart ∨ s.opened = true ∧ c.answers.Sound c.request s.store

/-! ## The reads -/

section

variable {σ : Type} {getSecret : σ → Except RemoteError Data} {s : σ} {m : KVMap}

/-- The map is read, or an error that is no "not found". -/
def Reads (getSecret : σ → Except RemoteError Data) (s : σ) (m : KVMap) : Prop :=
  readConfig getSecret s = .ok m ∨ ∃ e, readConfig getSecret s = .error e ∧ e ≠ .kvNotFound

theorem reads_of_getSecret (herr : getSecret s ≠ .error .kvNotFound)
    (hok : ∀ data, getSecret s = .ok data → decoded data = m) : Reads getSecret s m := by
  unfold Reads readConfig
  cases hg : getSecret s with
  | error e =>
    refine Or.inr ⟨e, rfl, ?_⟩
    rintro rfl
    exact herr hg
  | ok data =>
    obtain rfl := hok data hg
    cases data with
    | empty => exact Or.inl rfl
    | json m => exact Or.inl rfl
    | malformed => exact Or.inr ⟨.unmarshal, rfl, nofun⟩

/-- A `Get` over such a read. -/
theorem Reads.get (h : Reads getSecret s m) (key : String) :
    Reply.ofRemote (getKey getSecret key s) = .failed ∨
      Reply.ofRemote (getKey getSecret key s) = (map.apply (.get key) m).1 := by
  unfold getKey
  rcases h with h | ⟨e, h, hne⟩
  · right
    rw [h]
    simp only [map]
    cases m.lookup key <;> rfl
  · left
    rw [h]
    cases e <;> first | rfl | exact absurd rfl hne

end

namespace Remote

variable {σ : Type} {st : RemoteStore σ} {a : RemoteAnswers} {s : σ} {m : KVMap}

theorem reads (herr : st.getSecret s ≠ .error .kvNotFound)
    (hok : ∀ data, st.getSecret s = .ok data → decoded data = m) : Reads (st.read a) s m := by
  refine reads_of_getSecret ?_ fun data hd => ?_ <;> unfold RemoteStore.read at *
  · split
    · nofun
    · exact herr
  · split at hd
    · cases hd
    · exact hok data hd

/-- A write leaves the new map, or fails and leaves the secret. -/
theorem write_cases (cfg : KVMap) :
    (∃ e, st.write a (marshal cfg) s = (.error e, s)) ∨
      ∃ s', st.write a (marshal cfg) s = (.ok (), s') ∧ st.getSecret s' = .ok (.json cfg) := by
  unfold RemoteStore.write
  split
  · exact Or.inl ⟨_, rfl⟩
  · obtain ⟨s', hset, hget⟩ := st.get_set (marshal cfg) s
    rw [hset]
    exact Or.inr ⟨s', rfl, hget⟩

/-- `Set` and `Del` over such a read. -/
theorem modify_cases (h : Reads (st.read a) s m) (op : Op) :
    (∃ e, st.modify a op s = (.error e, s)) ∨
      ∃ s', st.modify a op s = (.ok (), s') ∧ st.getSecret s' = .ok (.json (op.apply m)) := by
  unfold RemoteStore.modify
  rcases h with h | ⟨e, h, -⟩ <;> rw [h]
  · exact write_cases _
  · exact Or.inl ⟨e, rfl⟩

end Remote

/-! ## `OciStore` -/

section

variable {f : Failures} {v : OciVault}

/-- The three ways of a read: an error, no bytes, or the plaintext. -/
theorem getSecret_cases (f : Failures) (v : OciVault) :
    OciStore.getSecret f v = .error .external ∨
      OciStore.getSecret f v = .ok .empty ∧ (OciStore.Swallowed f ∨ v.secret.join = none) ∨
      ∃ data, v.secret.join = some data ∧ OciStore.getSecret f v = .ok data := by
  unfold OciStore.getSecret OciStore.getSecretId OciStore.Swallowed
  cases hl : f.listRead
  · cases hv : v.secret with
    | none => simp
    | some text => cases hb : f.bundle <;> cases hd : f.decrypt <;> cases text <;> simp
  · simp

/-- A read that is not covered up is one of the content. -/
theorem reads_oci (h : OciStore.Swallowed f → content (.oci v) = ∅) :
    Reads (OciStore.getSecret f) v (content (.oci v)) := by
  rcases getSecret_cases f v with hread | ⟨hread, hempty⟩ | ⟨data, hv, hread⟩
  · exact reads_of_getSecret (by simp [hread]) (by simp [hread])
  · refine reads_of_getSecret (by simp [hread]) fun data hd => ?_
    obtain rfl : Data.empty = data := Except.ok.inj (hread.symm.trans hd)
    rcases hempty with hs | hv
    · exact (h hs).symm
    · show ∅ = (v.secret.join.map decoded).getD ∅
      rw [hv]
      rfl
  · refine reads_of_getSecret (by simp [hread]) fun data' hd => ?_
    obtain rfl : data = data' := Except.ok.inj (hread.symm.trans hd)
    show decoded data = (v.secret.join.map decoded).getD ∅
    rw [hv]
    rfl

/-- A write leaves the new map, or fails and leaves the secret. -/
theorem setSecret_cases {fuel : Nat} (hwait : OciStore.waitForSecret f.polls fuel = true)
    (value : Data) : (∃ e, OciStore.setSecret f fuel value v = (some (.error e), v)) ∨
      OciStore.setSecret f fuel value v =
        (some (.ok ()), { v with secret := some (some value) }) := by
  unfold OciStore.setSecret OciStore.getSecretId OciStore.createSecret OciStore.updateSecret
  cases he : f.encrypt <;> cases hl : f.listWrite <;> cases hw : f.write <;>
    cases hv : v.secret <;> simp [hwait, v.id_ne]

/-- `Set` and `Del` over a read. -/
theorem modify_oci {fuel : Nat} (hread : Reads (OciStore.getSecret f) v (content (.oci v)))
    (hwait : OciStore.waitForSecret f.polls fuel = true) (op : Op) :
    let r := match op with
      | .set key data => OciStore.set f fuel key data v
      | .del key => OciStore.del f fuel key v
    (∃ e, r = (some (.error e), v)) ∨ r = (some (.ok ()),
      { v with secret := some (some (.json (op.apply (content (.oci v))))) }) := by
  have hboth : ∀ op : Op, (∃ e, (match readConfig (OciStore.getSecret f) v with
      | .error e => (some (.error e), v)
      | .ok cfg => OciStore.setSecret f fuel (marshal (op.apply cfg)) v) = (some (.error e), v)) ∨
      (match readConfig (OciStore.getSecret f) v with
        | .error e => (some (.error e), v)
        | .ok cfg => OciStore.setSecret f fuel (marshal (op.apply cfg)) v) = (some (.ok ()),
          { v with secret := some (some (.json (op.apply (content (.oci v))))) }) := by
    intro op
    rcases hread with h | ⟨e, h, -⟩ <;> rw [h]
    · exact setSecret_cases hwait _
    · exact Or.inl ⟨e, rfl⟩
  cases op with
  | set key data => exact hboth (.set key data)
  | del key => exact hboth (.del key)

end

/-! ## `Init` -/

theorem ofUnit_cases {ε : Type} (r : Except ε Unit) :
    Reply.ofUnit r = .done ∨ Reply.ofUnit r = .failed := by
  cases r with
  | ok u => exact Or.inl rfl
  | error e => exact Or.inr rfl

theorem ofError_cases (e : Option File.FileError) :
    Reply.ofError e = .done ∨ Reply.ofError e = .failed := by
  cases e with
  | none => exact Or.inl rfl
  | some e => exact Or.inr rfl

/-- `FileStore.Init` leaves what is in the file, which may be nothing before and no key after. -/
theorem initStore_content (readErr writeErr : Option String) (file : Option Data) :
    content (.file (File.initStore readErr writeErr (File.newFileStore file)).2) =
        content (.file ⟨∅, file⟩) ∧
      ((File.initStore readErr writeErr (File.newFileStore file)).1 = none →
        File.Saved (File.initStore readErr writeErr (File.newFileStore file)).2) := by
  unfold File.initStore File.newFileStore
  cases readErr with
  | some err => exact ⟨rfl, nofun⟩
  | none =>
    cases file with
    | none =>
      cases writeErr with
      | some err => exact ⟨rfl, nofun⟩
      | none => exact ⟨rfl, fun _ => rfl⟩
    | some data =>
      cases data with
      | empty | malformed => exact ⟨rfl, nofun⟩
      | json m =>
        refine ⟨rfl, fun _ => ?_⟩
        show some (Data.json m) = some (marshal (m ∪ ∅))
        rw [Finmap.union_empty]
        rfl

/-- The two remote stores that have an `initConnection` write the empty map over a secret that is
not initialised. -/
theorem initConnection_aws (a : RemoteAnswers) (s : AwsSecret) :
    content (.aws (AWSStore.initConnection a s).2) = content (.aws s) := by
  unfold AWSStore.initConnection
  split
  · rfl
  · cases s with
    | secretBinary data => rfl
    | secretString text =>
      simp only
      split
      · unfold RemoteStore.write
        split <;> rfl
      · rfl

theorem initConnection_gcp (a : RemoteAnswers) (payload : Payload) (s : GcpSecret) :
    content (.gcp (GCPStore.initConnection a payload s).2) = content (.gcp s) := by
  unfold GCPStore.initConnection
  cases hread : gcpStore.read a s with
  | error e => rfl
  | ok data =>
    cases data with
    | empty | json => rfl
    | malformed =>
      cases payload with
      | json | other => rfl
      | notInitialised =>
        simp only
        unfold RemoteStore.write
        split
        · rfl
        · -- the payload is no map, and the new one is empty
          cases s with
          | nil => rfl
          | cons data rest =>
            unfold RemoteStore.read at hread
            split at hread
            · cases hread
            · obtain rfl : data = .malformed := Except.ok.inj hread
              rfl

/-- An `Init` leaves the content as it is. If it succeeds, the memory is what the file has. -/
theorem init_content (a : Answers) (b : Backend) : content (b.init a).2 = content b ∧
    ((b.init a).1 = .done ∨ (b.init a).1 = .failed) ∧
    ((b.init a).1 = .done → Synced (b.init a).2) := by
  cases b with
  | file s =>
    obtain ⟨hcontent, hsaved⟩ := initStore_content a.readErr a.writeErr s.file
    refine ⟨hcontent, ofError_cases _, fun hdone => hsaved ?_⟩
    show (File.initStore a.readErr a.writeErr (File.newFileStore s.file)).1 = none
    have hdone : Reply.ofError (File.initStore a.readErr a.writeErr
      (File.newFileStore s.file)).1 = .done := hdone
    cases h : (File.initStore a.readErr a.writeErr (File.newFileStore s.file)).1 with
    | none => rfl
    | some e =>
      rw [h] at hdone
      cases hdone
  | oci v =>
    refine ⟨rfl, ?_, fun _ => trivial⟩
    show (if a.ociInit then Reply.failed else .done) = .done ∨
      (if a.ociInit then Reply.failed else .done) = .failed
    cases a.ociInit
    · exact Or.inl rfl
    · exact Or.inr rfl
  | aws s => exact ⟨initConnection_aws a.remote s, ofUnit_cases _, fun _ => trivial⟩
  | gcp s => exact ⟨initConnection_gcp a.remote a.payload s, ofUnit_cases _, fun _ => trivial⟩

/-! ## `Get`, `Set` and `Del` -/

theorem aws_reads (a : RemoteAnswers) (s : AwsSecret) :
    Reads (awsStore.read a) s (content (.aws s)) := by
  cases s with
  | secretString text => exact Remote.reads (fun h => by cases h) (fun data h => by cases h)
  | secretBinary data =>
    refine Remote.reads (fun h => by cases h) fun data' h => ?_
    obtain rfl : data = data' := Except.ok.inj h
    rfl

theorem gcp_reads (a : RemoteAnswers) (s : GcpSecret) :
    Reads (gcpStore.read a) s (content (.gcp s)) := by
  cases s with
  | nil => exact Remote.reads (fun h => by cases h) (fun data h => by cases h)
  | cons data rest =>
    refine Remote.reads (fun h => by cases h) fun data' h => ?_
    obtain rfl : data = data' := Except.ok.inj h
    rfl

/-- `FileStore.Get`. -/
theorem get_file (key : String) (s : File.State) :
    Reply.ofFile (File.get key s) = (map.apply (.get key) s.data).1 := by
  unfold File.get
  simp only [map]
  cases s.data.lookup key <;> rfl

/-- A `Get` says what the content has, or fails. -/
theorem get_content {a : Answers} {b : Backend} {key : String} (hsync : Synced b)
    (hsound : a.Sound (.get key) b) :
    b.get a key = .failed ∨ b.get a key = (map.apply (.get key) (content b)).1 := by
  cases b with
  | file s =>
    right
    have hfile : s.file = some (marshal s.data) := hsync
    show Reply.ofFile (File.get key s) = (map.apply (.get key) ((s.file.map decoded).getD ∅)).1
    rw [hfile]
    exact get_file key s
  | oci v => exact (reads_oci hsound.1).get key
  | aws s => exact (aws_reads a.remote s).get key
  | gcp s => exact (gcp_reads a.remote s).get key

/-- A `Set` or `Del` changes the content, or fails and leaves it. -/
theorem write_content {a : Answers} {b : Backend} {op : Op} (hsync : Synced b)
    (hsound : a.Sound (.write op) b) : Synced (b.write a op).2 ∧
      ((b.write a op).1 = .failed ∧ content (b.write a op).2 = content b ∨
        (b.write a op).1 = .done ∧ content (b.write a op).2 = op.apply (content b)) := by
  cases b with
  | file s =>
    have hsaved : File.Saved s := hsync
    refine ⟨(hsaved.run hsound).1, ?_⟩
    have hcontent : content (.file s) = s.data := by
      show (s.file.map decoded).getD ∅ = s.data
      rw [show s.file = some (marshal s.data) from hsaved]
      rfl
    rw [hcontent]
    simp only [Backend.write]
    rcases File.run_eq ⟨op, a.writeErr⟩ s with hrun | ⟨hsame, hrun⟩
    · rw [hrun]
      cases hw : a.writeErr with
      | none => exact Or.inr ⟨rfl, rfl⟩
      | some err => exact Or.inl ⟨rfl, hcontent⟩
    · rw [hrun]
      exact Or.inr ⟨rfl, hcontent.trans hsame.symm⟩
  | oci v =>
    refine ⟨trivial, ?_⟩
    rcases modify_oci (reads_oci hsound.1) hsound.2 op with ⟨e, h⟩ | h
    · simp only [Backend.write, h]
      exact Or.inl ⟨rfl, trivial⟩
    · simp only [Backend.write, h]
      exact Or.inr ⟨rfl, rfl⟩
  | aws s =>
    refine ⟨trivial, ?_⟩
    rcases Remote.modify_cases (aws_reads a.remote s) op with ⟨e, h⟩ | ⟨s', h, hget⟩
    · simp only [Backend.write, h]
      exact Or.inl ⟨rfl, trivial⟩
    · simp only [Backend.write, h]
      refine Or.inr ⟨rfl, ?_⟩
      cases s' with
      | secretString text => cases hget
      | secretBinary data =>
        obtain rfl : data = .json _ := Except.ok.inj hget
        rfl
  | gcp s =>
    refine ⟨trivial, ?_⟩
    rcases Remote.modify_cases (gcp_reads a.remote s) op with ⟨e, h⟩ | ⟨s', h, hget⟩
    · simp only [Backend.write, h]
      exact Or.inl ⟨rfl, trivial⟩
    · simp only [Backend.write, h]
      refine Or.inr ⟨rfl, ?_⟩
      cases s' with
      | nil => cases hget
      | cons data rest =>
        obtain rfl : data = .json _ := Except.ok.inj hget
        rfl

/-! ## Every run -/

/-- Each call does what the map does, or fails and does nothing. -/
theorem machine_implements : Implements machine map Call.request Fine Holds := by
  rintro ⟨b, opened⟩ m ⟨request, answers⟩ ⟨rfl, hsync⟩ hfine
  cases request with
  | restart =>
    obtain ⟨hcontent, hreply, hsynced⟩ := init_content answers b
    have hholds : Holds ⟨(b.init answers).2, (b.init answers).1 = .done⟩ (content b) :=
      ⟨hcontent, fun h => hsynced (of_decide_eq_true h)⟩
    rcases hreply with hdone | hfailed
    · exact Or.inr ⟨hdone, hholds⟩
    · exact Or.inl ⟨decide_eq_true hfailed, hholds⟩
  | get key =>
    obtain ⟨hopened, hsound⟩ := hfine.resolve_left nofun
    rcases get_content (hsync hopened) hsound with hfailed | hget
    · exact Or.inl ⟨decide_eq_true hfailed, rfl, hsync⟩
    · exact Or.inr ⟨hget, rfl, hsync⟩
  | write op =>
    obtain ⟨hopened, hsound⟩ := hfine.resolve_left nofun
    obtain ⟨hsynced, hor⟩ := write_content (hsync hopened) hsound
    rcases hor with ⟨hfailed, hcontent⟩ | ⟨hdone, hcontent⟩
    · exact Or.inl ⟨decide_eq_true hfailed, hcontent, fun _ => hsynced⟩
    · exact Or.inr ⟨hdone, hcontent, fun _ => hsynced⟩

/-- **Every store is a map.** Whatever store is configured and whatever it contains, the answers in
every run of restarts and calls that are fine are those of one map, which starts and ends with what
the store contains; calls that fail do nothing. -/
theorem stores_refine {b : Backend} {cs : List Call} (hfine : machine.Met Fine cs ⟨b, false⟩) :
    map.Explains (cs.map Call.request) (machine.run cs ⟨b, false⟩).1 (content b)
      (content (machine.run cs ⟨b, false⟩).2.store) := by
  obtain ⟨m', hex, hlast⟩ := machine_implements.run (s := ⟨b, false⟩) ⟨rfl, nofun⟩ hfine
  rwa [hlast.content]

/-- Every external call succeeds, on a secret that is still to be initialised. -/
def okAnswers : Answers := ⟨none, none, Failures.none, 1, false, ⟨false, false⟩, .notInitialised⟩

/-- The last write fails. -/
def failingWrite : Answers := { okAnswers with remote := ⟨false, true⟩ }

/-- A secret of GCP that is still to be initialised: a key is set, another value of it cannot be
written, and after a restart the first one is served. -/
theorem stores_refine_sample :
    let cs : List Call := [⟨.restart, okAnswers⟩, ⟨.write (.set "k" [1]), okAnswers⟩,
      ⟨.write (.set "k" [2]), failingWrite⟩, ⟨.restart, okAnswers⟩, ⟨.get "k", okAnswers⟩]
    let b : Backend := .gcp [.malformed]
    (machine.run cs ⟨b, false⟩).1 = [.done, .done, .failed, .done, .value [1]] ∧
      map.Explains (cs.map Call.request) (machine.run cs ⟨b, false⟩).1 ∅
        (content (machine.run cs ⟨b, false⟩).2.store) :=
  ⟨by decide +kernel, stores_refine (b := .gcp [.malformed])
    ⟨Or.inl rfl, Or.inr ⟨rfl, trivial⟩, Or.inr ⟨rfl, trivial⟩, Or.inl rfl,
      Or.inr ⟨rfl, trivial⟩, trivial⟩⟩

/-- **The stores are interchangeable.** Two stores with the same content answer the same requests
alike, if nothing fails, and have the same content then. -/
theorem interchangeable_stores {b b' : Backend} (hcontent : content b = content b')
    {cs cs' : List Call} (hcs : cs.map Call.request = cs'.map Call.request)
    (hfine : machine.Met Fine cs ⟨b, false⟩) (hfine' : machine.Met Fine cs' ⟨b', false⟩)
    (hok : ∀ r ∈ (machine.run cs ⟨b, false⟩).1, r ≠ .failed)
    (hok' : ∀ r ∈ (machine.run cs' ⟨b', false⟩).1, r ≠ .failed) :
    (machine.run cs ⟨b, false⟩).1 = (machine.run cs' ⟨b', false⟩).1 ∧
      content (machine.run cs ⟨b, false⟩).2.store =
        content (machine.run cs' ⟨b', false⟩).2.store := by
  obtain ⟨m, hex, hlast⟩ := machine_implements.run (s := ⟨b, false⟩) ⟨rfl, nofun⟩ hfine
  obtain ⟨m', hex', hlast'⟩ := machine_implements.run (s := ⟨b', false⟩) ⟨rfl, nofun⟩ hfine'
  have h := hex.answers fun r hr => decide_eq_false (hok r hr)
  have h' := hex'.answers fun r hr => decide_eq_false (hok' r hr)
  rw [hcs, hcontent, h'] at h
  rw [hlast.content, hlast'.content]
  exact ⟨(congrArg Prod.fst h).symm, (congrArg Prod.snd h).symm⟩

/-- A key is set and read, after another one has been deleted that was not there. -/
def sampleCalls : List Call := [⟨.restart, okAnswers⟩, ⟨.write (.set "k" [1]), okAnswers⟩,
  ⟨.write (.del "j"), okAnswers⟩, ⟨.get "k", okAnswers⟩]

/-- A secret of AWS and one of GCP, both still to be initialised. -/
theorem interchangeable_stores_sample :
    (machine.run sampleCalls ⟨.aws (.secretString "initialise me"), false⟩).1 =
      (machine.run sampleCalls ⟨.gcp [.malformed], false⟩).1 := by
  have haws : machine.Met Fine sampleCalls ⟨.aws (.secretString "initialise me"), false⟩ :=
    ⟨Or.inl rfl, Or.inr ⟨rfl, trivial⟩, Or.inr ⟨rfl, trivial⟩, Or.inr ⟨rfl, trivial⟩, trivial⟩
  have hgcp : machine.Met Fine sampleCalls ⟨.gcp [.malformed], false⟩ :=
    ⟨Or.inl rfl, Or.inr ⟨rfl, trivial⟩, Or.inr ⟨rfl, trivial⟩, Or.inr ⟨rfl, trivial⟩, trivial⟩
  exact (interchangeable_stores rfl rfl haws hgcp (by decide +kernel) (by decide +kernel)).1

end Backends

end SigningAgent.Store
