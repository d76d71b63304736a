import SigningAgent.Go
import SigningAgent.Lib.ReadModifyWrite
import Mathlib.Data.Finmap

/-!
# The remote key-value stores (`internal/util/awsstore.go`, `gcpstore.go`, `ocistore.go`)

`AWSStore`, `GCPStore` and `OciStore` keep the whole map of keys in one remote secret, as JSON.
Their `Get`, `Set` and `Del` are the same code over a `getSecret` and a `setSecret` of their own:

* under the read lock, read the secret and decode it (`readConfig`);
* for `Set` and `Del`, give the lock up, take the write lock, change the decoded map and write
  all of it back (`writeConfig`).

The conventions:

* A secret's bytes are taken by what the stores can tell of them: no bytes, the JSON of a map, or
  something that does not decode (`Data`). JSON keys are strings, so keys are. The JSON text `null`
  is left out: it decodes to a nil map, which `Get` and `Del` take for an empty one and on which
  `Set` panics. A store writes it only after it has read it.
* A `RemoteStore` is a `getSecret` and a `setSecret` whose external calls succeed; that a
  secret is read as it was written is a field. `AWSStore` and `GCPStore` are defined here,
  `OciStore`, with the failures of its calls, in `Oci.lean`.
-/

namespace SigningAgent.Store

open ReadModifyWrite

/-- A `map[string][]byte`. -/
abbrev KVMap := Finmap fun _ : String => Bytes

/-- The bytes of a secret, other than the JSON text `null`. -/
inductive Data where
  | empty
  | json (m : KVMap)
  | malformed
  deriving DecidableEq

inductive RemoteError where
  /-- `defs.ErrKVNotFound` -/
  | kvNotFound
  /-- an error of `json.Unmarshal` -/
  | unmarshal
  /-- "string returned, expected []byte" -/
  | secretString
  /-- "failed to lookup the secret" -/
  | lookup
  /-- "not found", of a secret -/
  | secretNotFound
  /-- an error of a call to the cloud provider -/
  | external
  deriving DecidableEq, Repr

/-- `json.Marshal`, which cannot fail on a map of byte slices. -/
def marshal (m : KVMap) : Data := .json m

/-- `json.Unmarshal` into a map. -/
def unmarshal : Data → Except RemoteError KVMap
  | .json m => .ok m
  | .empty | .malformed => .error .unmarshal

section

variable {σ : Type} (getSecret : σ → Except RemoteError Data)

/-- The read phase of `Get`, `Set` and `Del`. -/
def readConfig (s : σ) : Except RemoteError KVMap :=
  match getSecret s with
  | .error e => .error e
  | .ok data => if data = .empty then .ok ∅ else unmarshal data

/-- `Get`. -/
def getKey (key : String) (s : σ) : Except RemoteError Bytes :=
  match readConfig getSecret s with
  | .error e => .error e
  | .ok cfg =>
    match cfg.lookup key with
    | some val => .ok val
    | none => .error .kvNotFound

end

/-- A call of `Set` or of `Del`. -/
inductive Op where
  | set (key : String) (data : Bytes)
  | del (key : String)
  deriving DecidableEq, Repr

def Op.key : Op → String
  | .set key _ | .del key => key

/-- `cfg[key] = data`, or `delete(cfg, key)`. -/
def Op.apply : Op → KVMap → KVMap
  | .set key data, cfg => cfg.insert key data
  | .del key, cfg => cfg.erase key

/-- A store over a secret of type `σ` whose external calls succeed. -/
structure RemoteStore (σ : Type) where
  getSecret : σ → Except RemoteError Data
  setSecret : Data → σ → Except RemoteError σ
  get_set : ∀ data s, ∃ s', setSecret data s = .ok s' ∧ getSecret s' = .ok data

namespace RemoteStore

variable {σ : Type} (st : RemoteStore σ)

/-- The write phase of `Set` and `Del`. -/
def writeConfig (cfg : KVMap) (s : σ) : Except RemoteError σ := st.setSecret (marshal cfg) s

/-- `Set` or `Del`, when nothing comes between its two phases. -/
def call (op : Op) (s : σ) : Except RemoteError σ :=
  match readConfig st.getSecret s with
  | .error e => .error e
  | .ok cfg => st.writeConfig (op.apply cfg) s

/-- What is written is what is read. -/
theorem readConfig_writeConfig (cfg : KVMap) (s : σ) :
    ∃ s', st.writeConfig cfg s = .ok s' ∧ readConfig st.getSecret s' = .ok cfg := by
  obtain ⟨s', hset, hget⟩ := st.get_set (marshal cfg) s
  refine ⟨s', hset, ?_⟩
  unfold readConfig
  rw [hget]
  rfl

/-- The store as a cell that calls read, modify and write back. -/
def port : Port KVMap σ where
  read s := (readConfig st.getSecret s).toOption
  write cfg s := (st.writeConfig cfg s).toOption.getD s
  read_write cfg s := by
    obtain ⟨s', hwrite, hread⟩ := st.readConfig_writeConfig cfg s
    rw [hwrite]
    show (readConfig st.getSecret s').toOption = some cfg
    rw [hread]
    rfl

end RemoteStore

/-! ## AWS -/

/-- A value in AWS Secrets Manager. -/
inductive AwsSecret where
  | secretString (text : String)
  | secretBinary (data : Data)
  deriving DecidableEq

/-- `AWSStore.getSecret`. -/
def AWSStore.getSecret : AwsSecret → Except RemoteError Data
  | .secretString _ => .error .secretString
  | .secretBinary data => .ok data

/-- `AWSStore.setSecret`: `UpdateSecret` with a binary. -/
def AWSStore.setSecret (data : Data) (_ : AwsSecret) : Except RemoteError AwsSecret :=
  .ok (.secretBinary data)

def awsStore : RemoteStore AwsSecret where
  getSecret := AWSStore.getSecret
  setSecret := AWSStore.setSecret
  get_set data _ := ⟨.secretBinary data, rfl, rfl⟩

/-! ## GCP -/

/-- The versions of a secret in GCP Secret Manager, the latest first. -/
abbrev GcpSecret := List Data

/-- `GCPStore.getSecret`: the latest version. -/
def GCPStore.getSecret : GcpSecret → Except RemoteError Data
  | [] => .error .lookup
  | data :: _ => .ok data

/-- `GCPStore.setSecret`: `AddSecretVersion`. -/
def GCPStore.setSecret (data : Data) (s : GcpSecret) : Except RemoteError GcpSecret :=
  .ok (data :: s)

def gcpStore : RemoteStore GcpSecret where
  getSecret := GCPStore.getSecret
  setSecret := GCPStore.setSecret
  get_set data s := ⟨data :: s, rfl, rfl⟩

end SigningAgent.Store
