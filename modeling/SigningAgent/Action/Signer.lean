import SigningAgent.Defs
import SigningAgent.Util.HttpClient

/-!
# The action signer (`internal/action/signer.go`)

`ActionApprove` and `ActionReject` fetch the action, check that it is pending, decode its first
message from hexadecimal and sign it; `ApproveActionMessage` signs the message it is given. The
signature is posted to the backend.

* `World` is what the signer rests on: the base64 and JSON decoders, `http.NewRequest` and
  `BLSSign`, which brings a signature and perhaps an error. What the backend does is in the call.
* `Post` is a POST that was handed to `Do`.

Results:
* **`signer_contract_iff`**: in a sequence of calls each one keeps the contract (no panic; only
  signatures made without error, with the key set last; nil exactly for an accepted POST) exactly if
  no pending answer lacks a message and `BLSSign` does not fail on what is to be signed.
* `actionApprove_panics`, `signAction_drops_error`: the two ways in which it is broken.
-/

namespace SigningAgent.Action.Signer

open Util

/-! ## Hexadecimal -/

/-- `hex.EncodeToString`. -/
def hexEncode (b : Bytes) : String :=
  String.ofList (b.flatMap fun x => [Nat.digitChar (x.toNat / 16), Nat.digitChar (x.toNat % 16)])

/-- The value of a hexadecimal digit, of either case. -/
def fromHexChar (c : Char) : Option Nat :=
  if '0' ≤ c ∧ c ≤ '9' then some (c.toNat - '0'.toNat)
  else if 'a' ≤ c ∧ c ≤ 'f' then some (c.toNat - 'a'.toNat + 10)
  else if 'A' ≤ c ∧ c ≤ 'F' then some (c.toNat - 'A'.toNat + 10)
  else none

def hexDecodeChars : List Char → Option Bytes
  | [] => some []
  | [_] => none
  | a :: b :: rest => do
    let hi ← fromHexChar a
    let lo ← fromHexChar b
    let tail ← hexDecodeChars rest
    pure (UInt8.ofNat (16 * hi + lo) :: tail)

/-- `hex.DecodeString`. -/
def hexDecode (s : String) : Option Bytes := hexDecodeChars s.toList

/-! ## The signer -/

/-- `signRequest`. -/
structure SignRequest where
  status : Int
  signatures : List String
  deriving DecidableEq, Repr

/-- `getActionResponse`. -/
structure GetActionResponse where
  messages : List String
  status : Int
  id : String
  deriving DecidableEq, Repr

def approve : Int := 3

def reject : Int := 4

inductive SignerError where
  /-- "invalid bls key" -/
  | invalidKey
  | request (e : RequestError)
  | badRequest (detail : String)
  | internal (detail : String)
  deriving DecidableEq, Repr

structure World where
  baseURL : String
  decodeStd : String → Option Bytes
  decodeResponse : Bytes → Option GetActionResponse
  newRequest : String → Option String
  blsSign : (m sk : Bytes) → Bytes × Option String

/-- A POST that was sent, and what came of it. -/
structure Post where
  url : String
  request : SignRequest
  exchange : Exchange
  deriving DecidableEq, Repr

/-- How a call ends, and what it has posted. -/
structure Result where
  outcome : Outcome SignerError Unit
  posts : List Post
  deriving DecidableEq

/-- `URLAction`. -/
def urlAction (baseURL actionID : String) : String := baseURL ++ "/actions/" ++ actionID

section

variable (w : World)

/-- `SetKey`: the new key, or the old one and an error. -/
def setKey (blsPrivateKey : String) (key : Bytes) : Outcome SignerError Unit × Bytes :=
  match w.decodeStd blsPrivateKey with
  | none => (.error (.error .invalidKey), key)
  | some data => (.ok (), data)

/-- `getActionMessage`. -/
def getActionMessage (actionID : String) (get : Exchange) : Outcome SignerError Bytes :=
  match requestInto w.newRequest w.decodeResponse "GET" (urlAction w.baseURL actionID) get with
  | .error e => .error (.error (.request e))
  | .ok resp =>
    if resp.status ≠ statusPending then
      .error (.error (.badRequest "action can't be signed, status not pending"))
    else do
      let first ← index resp.messages 0
      match hexDecode first with
      | none => .error (.error (.internal "failed to decode the action message"))
      | some message => .ok message

/-- `signAction`. The error of `BLSSign` is dropped. -/
def signAction (key : Bytes) (actionID : String) (message : Bytes) (status : Int)
    (post : Exchange) : Result :=
  if key.length = 0 then
    ⟨.error (.error (.internal "failed to generate signature, invalid blsKey")), []⟩
  else
    let (blsSig, _) := w.blsSign message key
    let signature := hexEncode blsSig
    let req : SignRequest := ⟨status, [signature]⟩
    let url := urlAction w.baseURL actionID
    let posts := if w.newRequest url = none then [⟨url, req, post⟩] else []
    match requestNil w.newRequest "POST" url post with
    | .error _ => ⟨.error (.error (.internal "failed to sign the action")), posts⟩
    | .ok () => ⟨.ok (), posts⟩

/-- The common body of `ActionApprove` and `ActionReject`. -/
def signFetched (status : Int) (key : Bytes) (actionID : String) (get post : Exchange) : Result :=
  match getActionMessage w actionID get with
  | .error e => ⟨.error e, []⟩
  | .ok message => signAction w key actionID message status post

/-- `ActionApprove`. -/
def actionApprove := signFetched w approve

/-- `ActionReject`. -/
def actionReject := signFetched w reject

/-- `ApproveActionMessage`. -/
def approveActionMessage (key : Bytes) (actionID : String) (message : Bytes) (post : Exchange) :
    Result :=
  signAction w key actionID message approve post

end

/-- A call of the signer, with what the backend does during it. -/
inductive Call where
  | setKey (blsPrivateKey : String)
  | actionApprove (actionID : String) (get post : Exchange)
  | actionReject (actionID : String) (get post : Exchange)
  | approveActionMessage (actionID : String) (message : Bytes) (post : Exchange)
  deriving DecidableEq, Repr

section

variable (w : World)

/-- One call, on a signer with this key: its result and the key it leaves. -/
def exec : Call → Bytes → Result × Bytes
  | .setKey blsPrivateKey, key =>
    let (outcome, key) := Signer.setKey w blsPrivateKey key
    (⟨outcome, []⟩, key)
  | .actionApprove actionID get post, key => (Signer.actionApprove w key actionID get post, key)
  | .actionReject actionID get post, key => (Signer.actionReject w key actionID get post, key)
  | .approveActionMessage actionID message post, key =>
    (Signer.approveActionMessage w key actionID message post, key)

/-- The calls one after another: their results and the key at the end. -/
def run : List Call → Bytes → List Result × Bytes
  | [], key => ([], key)
  | c :: calls, key =>
    let (r, key) := exec w c key
    let (rs, key) := run calls key
    (r :: rs, key)

end

/-! ## The contract -/

section

variable (w : World)

/-- The decoding of the last key that a `SetKey` of these calls accepted, `key` if none did. -/
def lastKey : List Call → Bytes → Bytes
  | [], key => key
  | .setKey blsPrivateKey :: calls, key =>
    lastKey calls ((w.decodeStd blsPrivateKey).getD key)
  | _ :: calls, key => lastKey calls key

/-- The backend answers with this action. -/
def Answers (get : Exchange) (resp : GetActionResponse) : Prop :=
  ∃ statusCode status body, get = .answered statusCode status (some body) ∧
    statusOK statusCode = true ∧ w.decodeResponse body = some resp

/-- The backend answers with a pending action whose first message is `m` in hexadecimal. -/
def Brings (get : Exchange) (m : Bytes) : Prop :=
  ∃ resp first, Answers w get resp ∧ resp.status = statusPending ∧
    resp.messages[0]? = some first ∧ hexDecode first = some m

/-- The call is to sign `m` for the action, with this status. -/
inductive Signs : Call → (actionID : String) → (status : Int) → (m : Bytes) → Prop
  | approve {actionID : String} {get post : Exchange} {m : Bytes} : Brings w get m →
      Signs (.actionApprove actionID get post) actionID 3 m
  | reject {actionID : String} {get post : Exchange} {m : Bytes} : Brings w get m →
      Signs (.actionReject actionID get post) actionID 4 m
  | message {actionID : String} {m : Bytes} {post : Exchange} :
      Signs (.approveActionMessage actionID m post) actionID 3 m

/-- The POST carries the hexadecimal signature that `BLSSign` made of the call's message. -/
def Signed (key : Bytes) (c : Call) (p : Post) : Prop :=
  ∃ actionID status m sig, Signs w c actionID status m ∧ w.blsSign m key = (sig, none) ∧
    p.url = urlAction w.baseURL actionID ∧ p.request = ⟨status, [hexEncode sig]⟩

/-- The contract of one call, on a signer with this key. -/
structure Meets (key : Bytes) (c : Call) (r : Result) : Prop where
  noPanic : r.outcome ≠ .error .panic
  signed : ∀ p ∈ r.posts, Signed w key c p
  once : r.posts.length ≤ 1
  nil_iff : (∀ s, c ≠ .setKey s) →
    (r.outcome = .ok () ↔ ∃ p ∈ r.posts, Signed w key c p ∧ p.exchange.ok = true)

/-- `BLSSign` does not fail on `m`, if it comes to that. -/
def Signable (key : Bytes) (actionID : String) (m : Bytes) : Prop :=
  w.newRequest (urlAction w.baseURL actionID) = none → key ≠ [] → (w.blsSign m key).2 = none

/-- What the backend answers for the action is fit to be signed. -/
def Fetchable (key : Bytes) (actionID : String) (get : Exchange) : Prop :=
  w.newRequest (urlAction w.baseURL actionID) = none →
    (∀ resp, Answers w get resp → resp.status = statusPending → resp.messages ≠ []) ∧
    ∀ m, Brings w get m → Signable w key actionID m

/-- The call is one that the signer handles well. -/
def Safe (key : Bytes) : Call → Prop
  | .setKey _ => True
  | .actionApprove actionID get _ | .actionReject actionID get _ => Fetchable w key actionID get
  | .approveActionMessage actionID m _ => Signable w key actionID m

end

section

variable {w : World} {key : Bytes} {actionID : String} {get post : Exchange} {c : Call}

theorem Answers.unique {resp resp' : GetActionResponse} (h : Answers w get resp)
    (h' : Answers w get resp') : resp = resp' := by
  obtain ⟨_, _, body, rfl, -, hd⟩ := h
  obtain ⟨_, _, body', he, -, hd'⟩ := h'
  cases he
  exact Option.some.inj (hd.symm.trans hd')

theorem Brings.unique {m m' : Bytes} (h : Brings w get m) (h' : Brings w get m') : m = m' := by
  obtain ⟨resp, first, ha, -, hf, hd⟩ := h
  obtain ⟨resp', first', ha', -, hf', hd'⟩ := h'
  obtain rfl := ha.unique ha'
  obtain rfl := Option.some.inj (hf.symm.trans hf')
  exact Option.some.inj (hd.symm.trans hd')

theorem Signs.unique {actionID actionID' : String} {status status' : Int} {m m' : Bytes}
    (h : Signs w c actionID status m) (h' : Signs w c actionID' status' m') :
    actionID = actionID' ∧ status = status' ∧ m = m' := by
  cases h with
  | approve h =>
    cases h' with
    | approve h' => exact ⟨rfl, rfl, h.unique h'⟩
  | reject h =>
    cases h' with
    | reject h' => exact ⟨rfl, rfl, h.unique h'⟩
  | message =>
    cases h' with
    | message => exact ⟨rfl, rfl, rfl⟩

/-! ## Fetching -/

/-- The request is sent and answered with this action. -/
def Fetched (w : World) (actionID : String) (get : Exchange) (resp : GetActionResponse) : Prop :=
  w.newRequest (urlAction w.baseURL actionID) = none ∧ Answers w get resp

/-- The ends of `getActionMessage`. -/
theorem getActionMessage_cases (w : World) (actionID : String) (get : Exchange) :
    (∃ resp m, Fetched w actionID get resp ∧ resp.status = statusPending ∧
      Brings w get m ∧ getActionMessage w actionID get = .ok m) ∨
    (∃ resp, Fetched w actionID get resp ∧ resp.status = statusPending ∧ resp.messages = [] ∧
      getActionMessage w actionID get = .error .panic) ∨
    ((∀ resp, Fetched w actionID get resp → resp.status = statusPending → resp.messages ≠ [] ∧
      ∀ m, ¬ Brings w get m) ∧ ∃ e, getActionMessage w actionID get = .error (.error e)) := by
  unfold getActionMessage
  cases hreq : requestInto w.newRequest w.decodeResponse "GET" (urlAction w.baseURL actionID)
    get with
  | error e =>
    refine Or.inr (Or.inr ⟨fun resp hf => ?_, _, rfl⟩)
    rw [requestInto_ok_iff.mpr hf] at hreq
    cases hreq
  | ok resp =>
    have hf : Fetched w actionID get resp := requestInto_ok_iff.mp hreq
    by_cases hstatus : resp.status = statusPending
    · simp only [hstatus, ne_eq, not_true_eq_false, if_false]
      cases hm : resp.messages with
      | nil => exact Or.inr (Or.inl ⟨resp, hf, hstatus, hm, rfl⟩)
      | cons first rest =>
        have hfirst : resp.messages[0]? = some first := by rw [hm]; rfl
        cases hd : hexDecode first with
        | some m =>
          refine Or.inl ⟨resp, m, hf, hstatus, ⟨resp, first, hf.2, hstatus, hfirst, hd⟩, ?_⟩
          show (match hexDecode first with | none => _ | some message => _) = _
          rw [hd]
        | none =>
          refine Or.inr (Or.inr ⟨fun resp' hf' _ => ?_,
            .internal "failed to decode the action message", ?_⟩)
          · obtain rfl := hf.2.unique hf'.2
            refine ⟨by simp [hm], ?_⟩
            rintro m ⟨resp'', first'', ha, -, hfirst', hd'⟩
            obtain rfl := hf.2.unique ha
            obtain rfl := Option.some.inj (hfirst.symm.trans hfirst')
            rw [hd] at hd'
            cases hd'
          · show (match hexDecode first with | none => _ | some message => _) = _
            rw [hd]
    · refine Or.inr (Or.inr ⟨fun resp' hf' hp => ?_,
        .badRequest "action can't be signed, status not pending", ?_⟩)
      · obtain rfl := hf.2.unique hf'.2
        exact absurd hp hstatus
      · simp [hstatus]

/-! ## Signing -/

/-- A call that ends in an error with nothing posted keeps the contract, unless it panics. -/
theorem meets_error_iff {e : Fault SignerError} :
    Meets w key c ⟨.error e, []⟩ ↔ e ≠ .panic := by
  constructor
  · rintro h rfl
    exact h.noPanic rfl
  · intro h
    exact ⟨fun he => h (by cases he; rfl), by simp, by simp, fun _ => by simp⟩

/-- Signing keeps the contract exactly if `BLSSign` does not fail. -/
theorem signAction_meets_iff {status : Int} {m : Bytes} (hs : Signs w c actionID status m) :
    Meets w key c (signAction w key actionID m status post) ↔ Signable w key actionID m := by
  unfold signAction
  by_cases hkey : key = []
  · subst hkey
    simp only [List.length_nil, if_true]
    rw [meets_error_iff]
    simp [Signable]
  · have hlen : ¬ key.length = 0 := by simpa using hkey
    rw [if_neg hlen]
    rcases hb : w.blsSign m key with ⟨sig, err⟩
    set url := urlAction w.baseURL actionID with hurl
    cases hnew : w.newRequest url with
    | some e =>
      have hreq : requestNil w.newRequest "POST" url post ≠ .ok () := by
        rw [Ne, requestNil_ok_iff]
        simp [hnew]
      simp only [hnew, reduceCtorEq, if_false]
      cases hr : requestNil w.newRequest "POST" url post with
      | ok u => exact absurd hr hreq
      | error e' =>
        simp only
        rw [meets_error_iff]
        simp [Signable, ← hurl, hnew]
    | none =>
      simp only [hnew, if_true]
      have hiff : Signable w key actionID m ↔ err = none := by
        simp [Signable, ← hurl, hnew, hkey, hb]
      have hsigned : Signed w key c ⟨url, ⟨status, [hexEncode sig]⟩, post⟩ ↔ err = none := by
        constructor
        · rintro ⟨actionID', status', m', sig', hs', hb', -⟩
          obtain ⟨-, -, rfl⟩ := hs.unique hs'
          rw [hb] at hb'
          exact congrArg Prod.snd hb'
        · rintro rfl
          exact ⟨actionID, status, m, sig, hs, hb, rfl, rfl⟩
      have hok := @requestNil_ok_iff w.newRequest "POST" url post
      rw [hiff]
      constructor
      · intro h
        refine hsigned.mp (h.signed _ ?_)
        cases requestNil w.newRequest "POST" url post <;> simp
      · intro herr
        have hsig := hsigned.mpr herr
        cases hr : requestNil w.newRequest "POST" url post with
        | error e =>
          have hnot : ¬ post.ok = true := fun h => by
            rw [hok.mpr ⟨hnew, h⟩] at hr
            cases hr
          exact ⟨by simp, by simpa using hsig, by simp, fun _ => by simp [hnot]⟩
        | ok u =>
          have hpost : post.ok = true := (hok.mp hr).2
          exact ⟨by simp, by simpa using hsig, by simp, fun _ => by simpa [hpost] using hsig⟩

/-- A failed `BLSSign` is not noticed: what it returned is posted, and the call returns nil. -/
theorem signAction_drops_error {m : Bytes} {status : Int} (hkey : key ≠ [])
    (hnew : w.newRequest (urlAction w.baseURL actionID) = none) (hpost : post.ok = true) :
    signAction w key actionID m status post = ⟨.ok (), [⟨urlAction w.baseURL actionID,
      ⟨status, [hexEncode (w.blsSign m key).1]⟩, post⟩]⟩ := by
  have hlen : ¬ key.length = 0 := by simpa using hkey
  unfold signAction
  rw [if_neg hlen]
  simp only [requestNil_ok_iff.mpr ⟨hnew, hpost⟩, hnew, if_true]

/-- Fetching and signing keeps the contract exactly if the answer is fit to be signed. -/
theorem signFetched_meets_iff {status : Int}
    (hs : ∀ m, Brings w get m → Signs w c actionID status m) :
    Meets w key c (signFetched w status key actionID get post) ↔
      Fetchable w key actionID get := by
  unfold signFetched
  rcases getActionMessage_cases w actionID get with
    ⟨resp, m, hf, hp, hm, hget⟩ | ⟨resp, hf, hp, hnil, hget⟩ | ⟨hno, e, hget⟩ <;> rw [hget]
  · simp only
    rw [signAction_meets_iff (hs m hm)]
    constructor
    · refine fun h _ => ⟨fun resp' ha _ => ?_, fun m' hm' => hm.unique hm' ▸ h⟩
      obtain rfl := hf.2.unique ha
      obtain ⟨resp', first, ha', -, hfirst, -⟩ := hm
      obtain rfl := hf.2.unique ha'
      rintro hnil
      rw [hnil] at hfirst
      cases hfirst
    · exact fun h => (h hf.1).2 m hm
  · simp only
    rw [meets_error_iff]
    constructor
    · exact fun h => absurd rfl h
    · exact fun h => absurd hnil ((h hf.1).1 resp hf.2 hp)
  · simp only
    rw [meets_error_iff]
    refine ⟨fun _ hnew => ⟨fun resp ha hp => (hno resp ⟨hnew, ha⟩ hp).1, fun m hm => ?_⟩,
      fun _ => by simp⟩
    obtain ⟨resp, first, ha, hp, hfirst, hd⟩ := hm
    exact absurd ⟨resp, first, ha, hp, hfirst, hd⟩ ((hno resp ⟨hnew, ha⟩ hp).2 m)

/-- **One call** keeps the contract exactly if it is safe. -/
theorem exec_meets_iff (w : World) (key : Bytes) (c : Call) :
    Meets w key c (exec w c key).1 ↔ Safe w key c := by
  cases c with
  | setKey s =>
    refine ⟨fun _ => trivial, fun _ => ?_⟩
    have hne : (setKey w s key).1 ≠ .error .panic := by
      unfold setKey
      cases w.decodeStd s <;> simp
    exact ⟨hne, by simp [exec], by simp [exec], fun h => absurd rfl (h s)⟩
  | actionApprove actionID get post => exact signFetched_meets_iff fun m hm => .approve hm
  | actionReject actionID get post => exact signFetched_meets_iff fun m hm => .reject hm
  | approveActionMessage actionID m post => exact signAction_meets_iff .message

/-- What a call leaves as the key. -/
theorem exec_key (w : World) (c : Call) (calls : List Call) (key : Bytes) :
    lastKey w (c :: calls) key = lastKey w calls (exec w c key).2 := by
  cases c with
  | setKey s =>
    unfold exec setKey
    cases h : w.decodeStd s <;> simp [lastKey, h]
  | _ => rfl

end

/-- **When a sequence of calls keeps the contract.** The key is always the one accepted last, and
all calls keep the contract exactly if each of them is safe with the key it finds. -/
theorem signer_contract_iff (w : World) : ∀ (calls : List Call) (key : Bytes),
    (run w calls key).2 = lastKey w calls key ∧
    (run w calls key).1.length = calls.length ∧
    ((∀ (i : Nat) (c : Call) (r : Result), calls[i]? = some c →
        (run w calls key).1[i]? = some r → Meets w (lastKey w (calls.take i) key) c r) ↔
      ∀ (i : Nat) (c : Call), calls[i]? = some c → Safe w (lastKey w (calls.take i) key) c)
  | [], key => ⟨rfl, rfl, by simp⟩
  | c :: calls, key => by
    obtain ⟨hkey, hlen, hiff⟩ := signer_contract_iff w calls (exec w c key).2
    have hrun : run w (c :: calls) key =
        ((exec w c key).1 :: (run w calls (exec w c key).2).1,
          (run w calls (exec w c key).2).2) := rfl
    rw [hrun]
    refine ⟨hkey.trans (exec_key w c calls key).symm, by simp [hlen], ?_⟩
    constructor
    · intro h i d hd
      cases i with
      | zero =>
        obtain rfl := Option.some.inj hd
        exact (exec_meets_iff w key c).mp (h 0 c _ rfl rfl)
      | succ i =>
        rw [List.take_succ_cons, exec_key]
        refine hiff.mp (fun j d r hd hr => ?_) i d hd
        have := h (j + 1) d r hd hr
        rwa [List.take_succ_cons, exec_key] at this
    · intro h i d r hd hr
      cases i with
      | zero =>
        obtain rfl := Option.some.inj hd
        obtain rfl := Option.some.inj hr
        exact (exec_meets_iff w key c).mpr (h 0 c rfl)
      | succ i =>
        rw [List.take_succ_cons, exec_key]
        refine hiff.mpr (fun j d hd => ?_) i d r hd hr
        have := h (j + 1) d hd
        rwa [List.take_succ_cons, exec_key] at this

/-! ## Samples -/

/-- The body of an answer with a pending action that has no messages. -/
def sampleBody : Bytes := utf8 "\x7b\"messages\":[],\"status\":1,\"id\":\"a\"\x7d"

/-- A backend at `"api"` and a signature function that never fails. -/
def sampleWorld : World where
  baseURL := "api"
  decodeStd s := if s = "a2V5" then some (utf8 "key") else none
  decodeResponse b := if b = sampleBody then some ⟨[], statusPending, "a"⟩ else none
  newRequest _ := none
  blsSign m sk := (m ++ sk, none)

/-- **An answer that panics.** After `SetKey`, the backend answers `ActionApprove` with a pending
action without messages. -/
theorem actionApprove_panics :
    ¬ ∀ (w : World) (calls : List Call) (key : Bytes) (i : Nat) (c : Call) (r : Result),
      calls[i]? = some c → (run w calls key).1[i]? = some r →
      Meets w (lastKey w (calls.take i) key) c r := by
  intro hall
  have h := hall sampleWorld [.setKey "a2V5", .actionApprove "a"
    (.answered 200 "200 OK" (some sampleBody)) (.answered 200 "200 OK" (some []))] [] 1 _ _ rfl rfl
  exact h.noPanic (by decide +kernel)

end SigningAgent.Action.Signer
