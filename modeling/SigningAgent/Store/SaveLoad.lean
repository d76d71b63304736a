import SigningAgent.Store.AgentStore

/-!
# Saving and loading the agent, for any ID

`SaveAgentInfo` writes the record under the ID it is given, and then the ID under the store's own
key. Both are keys of one map, and nothing keeps them apart: saved under the ID `AgentID_V2`, the
record is overwritten by its own ID. And the second write is the one that makes a record visible,
unless it is visible already: saved under the ID that is stored, it is with the first.

Here an ID is any Go string, by its bytes (`saveAgentInfoRaw`; `saveAgentInfo_raw` is the
connection).

* **`getAgentInfo_saves`**: what is loaded after a sequence of successful saves is the last record,
  if and only if it was saved under another ID than `AgentID_V2`.
* **`allOrNothing_iff`**: when a save that returns an error is not to be noticed.
-/

namespace SigningAgent.Store

/-- `SaveAgentInfo`, with an ID that is any Go string. -/
def saveAgentInfoRaw (json : Json) (id : Bytes) (agent : Option AgentInfo) (sets : SetAnswers)
    (kv : KV) : Except StoreError Unit × KV :=
  if id = [] then (.error .invalidID, kv)
  else match agent with
  | none => (.error .invalidInfo, kv)
  | some info =>
    match sets.info with
    | some err => (.error (.save err), kv)
    | none =>
      let kv := Function.update kv id (some (json.marshal info))
      match sets.id with
      | some err => (.error (.setID err), kv)
      | none => (.ok (), Function.update kv agentIDString (some id))

theorem utf8_eq_nil {s : String} : utf8 s = [] ↔ s = "" :=
  ⟨fun h => utf8_inj (h.trans rfl), fun h => h ▸ rfl⟩

/-- On IDs that are valid UTF-8 this is `saveAgentInfo`. -/
theorem saveAgentInfo_raw (json : Json) (id : String) (agent : Option AgentInfo)
    (sets : SetAnswers) (kv : KV) :
    saveAgentInfo json id agent sets kv = saveAgentInfoRaw json (utf8 id) agent sets kv := by
  obtain ⟨first, second⟩ := sets
  unfold saveAgentInfo saveAgentInfoRaw
  by_cases hid : id = ""
  · rw [if_pos hid, if_pos (utf8_eq_nil.mpr hid)]
  · refine (if_neg hid).trans (Eq.trans ?_ (if_neg fun h => hid (utf8_eq_nil.mp h)).symm)
    cases agent with
    | none => rfl
    | some info => cases first <;> cases second <;> rfl

variable {json : Json} {id : Bytes} {info : AgentInfo} {kv kv' : KV}

/-- What `GetAgentInfo` makes of the ID it has read. -/
def readInfo (json : Json) (kv : KV) (id : Bytes) : Except StoreError (Option AgentInfo) :=
  match kv id with
  | none => .error .retrieve
  | some data =>
    match json.unmarshal data with
    | none => .error .unmarshal
    | some info => .ok (some info)

theorem getAgentInfo_of_id (h : kv agentIDString = some id) :
    getAgentInfo json kv = readInfo json kv id := by
  have hread : getAgentInfo json kv = match kv agentIDString with
      | none => .ok none
      | some id => readInfo json kv id := rfl
  rw [hread, h]

theorem getAgentInfo_of_none (h : kv agentIDString = none) : getAgentInfo json kv = .ok none := by
  unfold getAgentInfo
  rw [h]

theorem readInfo_of_marshal (h : kv id = some (json.marshal info)) (hjson : json.RoundTrips info) :
    readInfo json kv id = .ok (some info) := by
  unfold readInfo
  rw [h]
  simp only
  rw [hjson]

theorem readInfo_congr (h : kv' id = kv id) : readInfo json kv' id = readInfo json kv id := by
  unfold readInfo
  rw [h]

/-! ## What is saved is what is loaded -/

/-- The two writes of a save that succeeds. -/
def saved (json : Json) (id : Bytes) (info : AgentInfo) (kv : KV) : KV :=
  Function.update (Function.update kv id (some (json.marshal info))) agentIDString (some id)

theorem saveAgentInfoRaw_ok {sets : SetAnswers}
    (h : saveAgentInfoRaw json id (some info) sets kv = (.ok (), kv')) :
    kv' = saved json id info kv := by
  obtain ⟨first, second⟩ := sets
  unfold saveAgentInfoRaw at h
  split_ifs at h
  · cases h
  · cases first with
    | some err => cases h
    | none =>
      cases second with
      | some err => cases h
      | none => exact (congrArg Prod.snd h).symm

/-- A call of `SaveAgentInfo`, with the answers of its two writes. -/
structure Save where
  id : Bytes
  info : AgentInfo
  sets : SetAnswers

/-- Successful calls one after the other. -/
def saveAll (json : Json) : List Save → KV → Except StoreError KV
  | [], kv => .ok kv
  | s :: saves, kv =>
    match saveAgentInfoRaw json s.id (some s.info) s.sets kv with
    | (.ok (), kv) => saveAll json saves kv
    | (.error e, _) => .error e

/-- The last call has written last. -/
theorem saveAll_last {saves : List Save} {s : Save} (hlast : saves.getLast? = some s)
    (h : saveAll json saves kv = .ok kv') : ∃ kv₀, kv' = saved json s.id s.info kv₀ := by
  induction saves generalizing kv with
  | nil => cases hlast
  | cons s' saves ih =>
    unfold saveAll at h
    split at h
    · rename_i kv₁ hsave
      cases saves with
      | nil =>
        obtain rfl : s' = s := Option.some.inj hlast
        obtain rfl : kv₁ = kv' := Except.ok.inj h
        exact ⟨kv, saveAgentInfoRaw_ok hsave⟩
      | cons s₁ saves =>
        rw [List.getLast?_cons_cons] at hlast
        exact ih hlast h
    · cases h

/-- What a save has written is loaded unless its two keys are one. -/
theorem getAgentInfo_saved (hjson : json.RoundTrips info)
    (hkey : json.unmarshal agentIDString = none) :
    getAgentInfo json (saved json id info kv) = .ok (some info) ↔ id ≠ agentIDString := by
  have hcur : saved json id info kv agentIDString = some id := Function.update_self _ _ _
  rw [getAgentInfo_of_id hcur]
  by_cases hid : id = agentIDString
  · -- the ID is read as the record
    have hread : readInfo json (saved json id info kv) id = .error .unmarshal := by
      unfold readInfo saved
      rw [hid, Function.update_self]
      simp only
      rw [hkey]
    rw [hread]
    exact iff_of_false nofun fun h => h hid
  · refine iff_of_true (readInfo_of_marshal ?_ hjson) hid
    unfold saved
    rw [Function.update_of_ne hid, Function.update_self]

/-- **What is saved is what is loaded**, after any sequence of successful saves on any store, if
and only if the last ID is not the key of the ID. JSON reads the last record back from its encoding,
and does not read the text `AgentID_V2`. -/
theorem getAgentInfo_saves {saves : List Save} {s : Save} (hlast : saves.getLast? = some s)
    (hsaves : saveAll json saves kv = .ok kv') (hjson : json.RoundTrips s.info)
    (hkey : json.unmarshal agentIDString = none) :
    getAgentInfo json kv' = .ok (some s.info) ↔ s.id ≠ agentIDString := by
  obtain ⟨kv₀, rfl⟩ := saveAll_last hlast hsaves
  exact getAgentInfo_saved hjson hkey

/-- The JSON text of a record whose strings need no escapes. -/
def recordText (info : AgentInfo) : Bytes :=
  utf8 ("\x7b\"blsPrivateKey\":\"" ++ info.blsPrivateKey ++
    "\",\"ecPrivateKey\":\"" ++ info.ecPrivateKey ++
    "\",\"workspaceID\":\"" ++ info.workspaceID ++
    "\",\"APIKeyID\":\"" ++ info.apiKeyID ++
    "\",\"APIKeySecret\":\"" ++ info.apiKeySecret ++ "\"\x7d")

/-- Two records of one agent. -/
def firstRecord : AgentInfo := ⟨"bls", "ec", "workspace", "key", "secret"⟩
def secondRecord : AgentInfo := { firstRecord with apiKeySecret := "changed" }

/-- JSON on these two. -/
def recordJson : Json where
  marshal := recordText
  unmarshal b :=
    if b = recordText firstRecord then some firstRecord
    else if b = recordText secondRecord then some secondRecord
    else none

/-- Two saves, under two IDs. -/
theorem getAgentInfo_saves_sample :
    getAgentInfo recordJson (saved recordJson (utf8 "b") secondRecord
      (saved recordJson (utf8 "AgentID_V2") firstRecord fun _ => none)) =
        .ok (some secondRecord) :=
  (@getAgentInfo_saves recordJson (fun _ => none) _
    [⟨utf8 "AgentID_V2", firstRecord, .ok⟩, ⟨utf8 "b", secondRecord, .ok⟩]
    ⟨utf8 "b", secondRecord, .ok⟩ rfl (by rfl)
    (by unfold Json.RoundTrips; decide +kernel) (by decide +kernel)).mpr (by decide +kernel)

/-- **The ID of the ID.** A record saved under `AgentID_V2` is lost. -/
theorem reserved_id_loses_record :
    ¬ ∀ (json : Json) (kv kv' : KV) (saves : List Save) (s : Save), saves.getLast? = some s →
      saveAll json saves kv = .ok kv' → (∀ s ∈ saves, json.RoundTrips s.info) →
      json.unmarshal agentIDString = none → getAgentInfo json kv' = .ok (some s.info) := by
  intro hall
  have hloaded := hall recordJson (fun _ => none)
    (saved recordJson agentIDString firstRecord fun _ => none)
    [⟨agentIDString, firstRecord, .ok⟩] ⟨agentIDString, firstRecord, .ok⟩ rfl (by rfl)
    (List.forall_mem_singleton.mpr (by unfold Json.RoundTrips; decide +kernel))
    (by decide +kernel)
  exact absurd hloaded (by decide +kernel)

/-! ## All or nothing -/

/-- A save that returns an error changes nothing that is loaded. -/
def AllOrNothing (json : Json) (id : Bytes) (agent : Option AgentInfo) (sets : SetAnswers)
    (kv : KV) : Prop :=
  ∀ e kv', saveAgentInfoRaw json id agent sets kv = (.error e, kv') →
    getAgentInfo json kv' = getAgentInfo json kv

/-- The first write is not noticed: under the key of the ID, what is stored under the new record's
text has to read as the agent did; under the stored ID, the new record has to be the one that is
loaded. -/
def Unnoticed (json : Json) (id : Bytes) (info : AgentInfo) (kv : KV) : Prop :=
  if id = agentIDString then readInfo json kv (json.marshal info) = getAgentInfo json kv
  else kv agentIDString = some id → getAgentInfo json kv = .ok (some info)

/-- The first of the two writes alone. -/
theorem unnoticed_iff (hjson : json.RoundTrips info) (hkey : json.unmarshal agentIDString = none) :
    getAgentInfo json (Function.update kv id (some (json.marshal info))) = getAgentInfo json kv ↔
      Unnoticed json id info kv := by
  unfold Unnoticed
  by_cases hid : id = agentIDString
  · subst hid
    rw [if_pos rfl, getAgentInfo_of_id (Function.update_self _ _ _)]
    have hne : json.marshal info ≠ agentIDString := by
      intro h
      have hread : json.unmarshal (json.marshal info) = some info := hjson
      rw [h, hkey] at hread
      cases hread
    rw [readInfo_congr (Function.update_of_ne hne _ _)]
  · rw [if_neg hid]
    have hsame : Function.update kv id (some (json.marshal info)) agentIDString =
        kv agentIDString := Function.update_of_ne (Ne.symm hid) _ _
    cases hcur : kv agentIDString with
    | none =>
      rw [hcur] at hsame
      rw [getAgentInfo_of_none hsame, getAgentInfo_of_none hcur]
      simp
    | some cur =>
      rw [hcur] at hsame
      rw [getAgentInfo_of_id hsame]
      by_cases heq : cur = id
      · subst heq
        rw [readInfo_of_marshal (Function.update_self _ _ _) hjson]
        simp [eq_comm]
      · rw [readInfo_congr (Function.update_of_ne heq _ _), getAgentInfo_of_id hcur]
        simp [heq]

/-- **When a save is all or nothing**: if and only if it does not fail in its second write, after
the first, or the first is not noticed. JSON reads the record back, and not the text
`AgentID_V2`. -/
theorem allOrNothing_iff {agent : Option AgentInfo}
    (hjson : ∀ info, agent = some info → json.RoundTrips info)
    (hkey : json.unmarshal agentIDString = none) (sets : SetAnswers) :
    AllOrNothing json id agent sets kv ↔
      ∀ info, id ≠ [] → agent = some info → sets.info = none → sets.id ≠ none →
        Unnoticed json id info kv := by
  obtain ⟨first, second⟩ := sets
  constructor
  · rintro h info hid rfl rfl hsecond
    obtain ⟨err, rfl⟩ := Option.ne_none_iff_exists'.mp hsecond
    refine (unnoticed_iff (hjson info rfl) hkey).mp (h (.setID err) _ ?_)
    simp only [saveAgentInfoRaw, if_neg hid]
  · intro h e kv' hsave
    unfold saveAgentInfoRaw at hsave
    split_ifs at hsave with hid
    · obtain rfl : kv = kv' := congrArg Prod.snd hsave
      rfl
    · cases agent with
      | none =>
        obtain rfl : kv = kv' := congrArg Prod.snd hsave
        rfl
      | some info =>
        cases first with
        | some err =>
          obtain rfl : kv = kv' := congrArg Prod.snd hsave
          rfl
        | none =>
          cases second with
          | none => cases hsave
          | some err =>
            obtain rfl : Function.update kv id (some (json.marshal info)) = kv' :=
              congrArg Prod.snd hsave
            exact (unnoticed_iff (hjson info rfl) hkey).mpr (h info hid rfl rfl nofun)

/-- A first save, whose second write fails. -/
theorem allOrNothing_sample : AllOrNothing recordJson (utf8 "agent") (some firstRecord)
    ⟨none, some "disk full"⟩ fun _ => none := by
  refine (@allOrNothing_iff recordJson (utf8 "agent") (fun _ => none) (some firstRecord) ?_
    (by decide +kernel) ⟨none, some "disk full"⟩).mpr ?_
  · rintro _ ⟨⟩
    unfold Json.RoundTrips
    decide +kernel
  · rintro info - - - -
    have hid : utf8 "agent" ≠ agentIDString := by decide +kernel
    rw [Unnoticed, if_neg hid]
    nofun

/-- The stores that saves make of an empty one. -/
inductive Stored (json : Json) : KV → Prop
  | empty : Stored json fun _ => none
  | save {kv : KV} (id : Bytes) (agent : Option AgentInfo) (sets : SetAnswers) :
      Stored json kv → Stored json (saveAgentInfoRaw json id agent sets kv).2

/-- **An error, and a new record.** The record of an agent is saved again, and the second write
fails: what is loaded is the new record. -/
theorem failed_save_is_loaded :
    ¬ ∀ (json : Json) (id : Bytes) (agent : Option AgentInfo) (sets : SetAnswers) (kv : KV),
      (∀ info, agent = some info → json.RoundTrips info) → json.unmarshal agentIDString = none →
      Stored json kv → AllOrNothing json id agent sets kv := by
  intro hall
  have hkept := hall recordJson (utf8 "agent") (some secondRecord) ⟨none, some "disk full"⟩
    (saveAgentInfoRaw recordJson (utf8 "agent") (some firstRecord) .ok fun _ => none).2
    (by rintro _ ⟨⟩; unfold Json.RoundTrips; decide +kernel) (by decide +kernel)
    (.save _ _ _ .empty) (.setID "disk full") _ rfl
  exact absurd hkept (by decide +kernel)

end SigningAgent.Store
