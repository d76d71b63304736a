import SigningAgent.Go
import Mathlib.Logic.Function.Basic

/-!
# The agent store (`internal/store/agent_store.go`)

The registered agent is kept under two keys of a key-value store: its data under its ID, and its
ID under `AgentID_V2`.

* A key is a Go string, taken by its bytes: `GetAgentInfo` uses bytes it has read as a key.
* `marshal` and `unmarshal` are `json.Marshal` and `json.Unmarshal` on `AgentInfo`. The first
  cannot fail on a struct of strings. What is read back is a hypothesis where it matters
  (`RoundTrips`).
* Each of the two `Set` calls of `SaveAgentInfo` may fail, which leaves the store unchanged.
-/

namespace SigningAgent.Store

/-- The content of a key-value store. -/
abbrev KV := Bytes → Option Bytes

structure AgentInfo where
  blsPrivateKey : String
  ecPrivateKey : String
  workspaceID : String
  apiKeyID : String
  apiKeySecret : String
  deriving DecidableEq, Repr

/-- The JSON encoding of `AgentInfo`. -/
structure Json where
  marshal : AgentInfo → Bytes
  unmarshal : Bytes → Option AgentInfo

/-- `info` is read back from its encoding. -/
def Json.RoundTrips (json : Json) (info : AgentInfo) : Prop :=
  json.unmarshal (json.marshal info) = some info

def agentIDString : Bytes := utf8 "AgentID_V2"

/-- The errors of the agent store. -/
inductive StoreError where
  /-- "invalid agentID" -/
  | invalidID
  /-- "invalid agent info" -/
  | invalidInfo
  /-- "failed to save agent info, err: %v" -/
  | save (err : String)
  /-- "failed to set agentID, err: %v" -/
  | setID (err : String)
  /-- "failed to retrieve agent info, err: %v", with `defs.ErrKVNotFound` -/
  | retrieve
  /-- "failed to unmarshal agent info, err: %v" -/
  | unmarshal
  deriving DecidableEq, Repr

/-- The answers of the two `Set` calls: an error, or none. -/
structure SetAnswers where
  info : Option String
  id : Option String
  deriving DecidableEq, Repr

/-- Both `Set` calls succeed. -/
def SetAnswers.ok : SetAnswers := ⟨none, none⟩

/-- `SaveAgentInfo`, with the store it leaves. -/
def saveAgentInfo (json : Json) (id : String) (agent : Option AgentInfo) (sets : SetAnswers)
    (kv : KV) : Except StoreError Unit × KV :=
  if id = "" then (.error .invalidID, kv)
  else match agent with
  | none => (.error .invalidInfo, kv)
  | some info =>
    match sets.info with
    | some err => (.error (.save err), kv)
    | none =>
      let kv := Function.update kv (utf8 id) (some (json.marshal info))
      match sets.id with
      | some err => (.error (.setID err), kv)
      | none => (.ok (), Function.update kv agentIDString (some (utf8 id)))

/-- `GetAgentInfo`, on a store that answers: nil without an ID. -/
def getAgentInfo (json : Json) (kv : KV) : Except StoreError (Option AgentInfo) :=
  match kv agentIDString with
  | none => .ok none
  | some id =>
    match kv id with
    | none => .error .retrieve
    | some data =>
      match json.unmarshal data with
      | none => .error .unmarshal
      | some info => .ok (some info)

/-- A save succeeds exactly if it is well formed and both `Set` calls succeed. -/
theorem saveAgentInfo_ok {json : Json} {id : String} {info : AgentInfo} {sets : SetAnswers}
    {kv : KV} : (saveAgentInfo json id (some info) sets kv).1 = .ok () ↔
      id ≠ "" ∧ sets = SetAnswers.ok := by
  obtain ⟨info, setID⟩ := sets
  unfold saveAgentInfo
  by_cases hid : id = ""
  · simp [hid]
  · cases info <;> cases setID <;> simp [hid, SetAnswers.ok]

/-- **What a successful save leaves is what is loaded**, unless the ID is the key of the ID. -/
theorem getAgentInfo_saveAgentInfo {json : Json} {id : String} {info : AgentInfo}
    {sets : SetAnswers} {kv kv' : KV}
    (h : saveAgentInfo json id (some info) sets kv = (.ok (), kv'))
    (hid : id ≠ "AgentID_V2") (hjson : json.RoundTrips info) :
    getAgentInfo json kv' = .ok (some info) := by
  obtain ⟨hne, rfl⟩ := saveAgentInfo_ok.mp (congrArg Prod.fst h)
  have hkv := congrArg Prod.snd h
  simp only [saveAgentInfo, if_neg hne, SetAnswers.ok] at hkv
  have hkey : utf8 id ≠ agentIDString := fun he => hid (utf8_inj he)
  unfold getAgentInfo
  rw [← hkv, Function.update_self]
  simp only
  rw [Function.update_of_ne hkey, Function.update_self]
  simp only
  rw [hjson]

end SigningAgent.Store
