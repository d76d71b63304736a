import SigningAgent.Go

/-!
# The HTTP client (`internal/util/httpclient.go`)

`Client.Request` builds a request, sends it and reads the answer. What the network does is a
parameter of a call: an `Exchange` is what `Do` brings for it. The request data are structs of
strings and integers, which `json.Marshal` encodes without an error; the headers are not modelled.
-/

namespace SigningAgent.Util

/-- What `Do` brings: an error, or an answer whose body may not be readable. -/
inductive Exchange where
  | failed (err : String)
  | answered (statusCode : Int) (status : String) (body : Option Bytes)
  deriving DecidableEq, Repr

inductive RequestError where
  /-- "create request" -/
  | create (err : String)
  /-- "request error" -/
  | request (err : String)
  /-- "%v %v Status %v (%v) with body: %s", or without the body if it is empty or unreadable -/
  | status (method url : String) (statusCode : Int) (status : String) (body : Bytes)
  /-- "read response body" -/
  | read
  /-- "decode response as JSON" -/
  | decode
  deriving DecidableEq, Repr

/-- `statusOK`. -/
def statusOK (statusCode : Int) : Bool := decide (200 ≤ statusCode ∧ statusCode < 300)

/-- The request was answered with a 2xx status. -/
def Exchange.ok : Exchange → Bool
  | .failed _ => false
  | .answered statusCode .. => statusOK statusCode

/-- `Request` up to the reading of the body. `newRequest` is `http.NewRequest`, which refuses a URL
it cannot parse. -/
def send (newRequest : String → Option String) (method url : String) (x : Exchange) :
    Except RequestError (Option Bytes) :=
  match newRequest url with
  | some err => .error (.create err)
  | none =>
    match x with
    | .failed err => .error (.request err)
    | .answered statusCode status body =>
      if statusOK statusCode then .ok body
      else .error (.status method url statusCode status (body.getD []))

/-- `Request` with a nil `respData`. -/
def requestNil (newRequest : String → Option String) (method url : String) (x : Exchange) :
    Except RequestError Unit :=
  (send newRequest method url x).map fun _ => ()

/-- `Request` with a struct as `respData`, which `decode` fills from the body. -/
def requestInto {ρ : Type} (newRequest : String → Option String) (decode : Bytes → Option ρ)
    (method url : String) (x : Exchange) : Except RequestError ρ := do
  match ← send newRequest method url x with
  | none => .error .read
  | some body =>
    match decode body with
    | none => .error .decode
    | some resp => .ok resp

variable {newRequest : String → Option String} {method url : String} {x : Exchange}

/-- Without an answer struct a request succeeds exactly if it is sent and answered with 2xx. -/
theorem requestNil_ok_iff :
    requestNil newRequest method url x = .ok () ↔ newRequest url = none ∧ x.ok = true := by
  unfold requestNil send
  cases newRequest url with
  | some err => simp [Except.map]
  | none =>
    cases x with
    | failed err => simp [Except.map, Exchange.ok]
    | answered statusCode status body =>
      cases h : statusOK statusCode <;> simp [Except.map, Exchange.ok, h]

/-- With one, the body has to decode as well. -/
theorem requestInto_ok_iff {ρ : Type} {decode : Bytes → Option ρ} {resp : ρ} :
    requestInto newRequest decode method url x = .ok resp ↔ newRequest url = none ∧
      ∃ statusCode status body, x = .answered statusCode status (some body) ∧
        statusOK statusCode = true ∧ decode body = some resp := by
  unfold requestInto send
  cases newRequest url with
  | some err => simp [bind, Except.bind]
  | none =>
    cases x with
    | failed err => simp [bind, Except.bind]
    | answered statusCode status body =>
      cases h : statusOK statusCode with
      | false => simp [bind, Except.bind, h]
      | true =>
        cases body with
        | none => simp [bind, Except.bind, h]
        | some body =>
          cases hd : decode body <;> simp [bind, Except.bind, h, hd]

end SigningAgent.Util
