import SigningAgent.Go

/-!
# The header provider (`internal/auth/header_provider.go`)

`Initiate` stores the credentials, asks the server for a token and starts the goroutine that
refreshes it. The model counts the goroutines: nothing but `Stop` ends one that still gets tokens.

* The answer of the server is a parameter: the request fails before it is sent, or it fails, or
  it brings a token whose validity `getTokenDuration` finds (in nanoseconds, negative if the token
  has expired, 0 if it cannot be read).
* `time.NewTicker` panics on an interval that is not positive.
* `decodeRawURL` is `base64.RawURLEncoding.DecodeString` with its error ignored.
-/

namespace SigningAgent.Auth

/-- An `apiTokenProvider`, and how many of its refresh loops are running. -/
structure Provider where
  workspaceID : String
  apiKeySecret : Bytes
  apiKeyID : String
  token : String
  tokenTTL : Int
  loops : Nat
  deriving DecidableEq, Repr

/-- What comes back for a token request. -/
inductive TokenAnswer where
  | hmacErr (err : String)
  | requestErr (err : String)
  | token (value : String) (ttl : Int)
  deriving DecidableEq, Repr

inductive TokenError where
  /-- "failed to generate signature, HmacSum err: %v" -/
  | signature (err : String)
  /-- "error while getting token response, err: %v" -/
  | response (err : String)
  /-- "invalid token duration" -/
  | duration
  deriving DecidableEq, Repr

/-- `initToken`. -/
def initToken (answer : TokenAnswer) (p : Provider) : Except TokenError Unit × Provider :=
  match answer with
  | .hmacErr err => (.error (.signature err), p)
  | .requestErr err => (.error (.response err), p)
  | .token value ttl =>
    let p := { p with token := value, tokenTTL := ttl }
    if ttl = 0 then (.error .duration, p) else (.ok (), p)

/-- `Initiate`. -/
def initiate (decodeRawURL : String → Bytes) (workspaceID apiKeySecret apiKeyID : String)
    (answer : TokenAnswer) (p : Provider) : Outcome TokenError Unit × Provider :=
  let p := { p with
    apiKeySecret := decodeRawURL apiKeySecret
    apiKeyID := apiKeyID
    workspaceID := workspaceID }
  match initToken answer p with
  | (.error e, p) => (.error (.error e), p)
  | (.ok (), p) =>
    -- `time.NewTicker(p.tokenTTL / 2)`
    if p.tokenTTL.tdiv 2 ≤ 0 then (.error .panic, p)
    else (.ok (), { p with loops := p.loops + 1 })

/-- The token is good for more than a nanosecond, so that `Initiate` gets to its loop. -/
def TokenAnswer.valid : TokenAnswer → Bool
  | .token _ ttl => decide (2 ≤ ttl)
  | _ => false

/-- The provider holds the credentials of a request. -/
structure Provider.Holds (p : Provider) (decodeRawURL : String → Bytes)
    (workspaceID apiKeySecret apiKeyID : String) : Prop where
  workspaceID : p.workspaceID = workspaceID
  apiKeySecret : p.apiKeySecret = decodeRawURL apiKeySecret
  apiKeyID : p.apiKeyID = apiKeyID

/-- Half a validity, rounded towards 0 as Go does, is a ticker's interval from 2 nanoseconds on. -/
theorem half_nonpos (ttl : Int) : ttl.tdiv 2 ≤ 0 ↔ ttl < 2 := by
  by_cases h : 0 ≤ ttl
  · rw [Int.tdiv_eq_ediv_of_nonneg h]
    omega
  · have hneg : ttl.tdiv 2 = -(-ttl).tdiv 2 := by rw [Int.neg_tdiv, Int.neg_neg]
    rw [hneg, Int.tdiv_eq_ediv_of_nonneg (by omega)]
    omega

section

variable {decodeRawURL : String → Bytes} {workspaceID apiKeySecret apiKeyID : String}
  {answer : TokenAnswer} {p : Provider}

/-- With a valid token `Initiate` starts one more loop, on the new credentials. -/
theorem initiate_of_valid (h : answer.valid = true) :
    ∃ p', initiate decodeRawURL workspaceID apiKeySecret apiKeyID answer p = (.ok (), p') ∧
      p'.loops = p.loops + 1 ∧ p'.Holds decodeRawURL workspaceID apiKeySecret apiKeyID := by
  cases answer with
  | hmacErr err => cases h
  | requestErr err => cases h
  | token value ttl =>
    have httl : 2 ≤ ttl := of_decide_eq_true h
    have hdiv : ¬ ttl.tdiv 2 ≤ 0 := by
      rw [half_nonpos]
      omega
    refine ⟨{ p with
      workspaceID := workspaceID
      apiKeySecret := decodeRawURL apiKeySecret
      apiKeyID := apiKeyID
      token := value
      tokenTTL := ttl
      loops := p.loops + 1 }, ?_, rfl, ⟨rfl, rfl, rfl⟩⟩
    unfold initiate initToken
    simp only [if_neg (show ttl ≠ 0 by omega), if_neg hdiv]

/-- Otherwise it fails or panics, and starts none. -/
theorem initiate_of_not_valid (h : answer.valid = false) :
    (initiate decodeRawURL workspaceID apiKeySecret apiKeyID answer p).1 ≠ .ok () ∧
      (initiate decodeRawURL workspaceID apiKeySecret apiKeyID answer p).2.loops = p.loops := by
  cases answer with
  | hmacErr err => exact ⟨by simp [initiate, initToken], rfl⟩
  | requestErr err => exact ⟨by simp [initiate, initToken], rfl⟩
  | token value ttl =>
    have httl : ¬ 2 ≤ ttl := of_decide_eq_false h
    unfold initiate initToken
    by_cases h0 : ttl = 0
    · simp [h0]
    · have hdiv : ttl.tdiv 2 ≤ 0 := (half_nonpos ttl).mpr (by omega)
      simp [h0, hdiv]

end

end SigningAgent.Auth
