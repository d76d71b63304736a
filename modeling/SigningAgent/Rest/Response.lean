import SigningAgent.Go

/-!
# Errors and responses (`internal/defs/errors.go`, `internal/rest/route.go`)

A handler returns a value or an error, and `ServeHTTP` writes the response: the value as JSON, or
the first `APIError` in the chain of the error, or a 500 around an error without one. For a request
to upgrade to a websocket it writes nothing, whatever the handler has returned.

* `Response.body` is the document that is encoded. Its encoding is left out, and so is its failure:
  the handlers return structs of strings and numbers.
* `ErrForbidden` and the text of an `APIError` that another one wraps are there as in the source;
  nothing in the repository makes such errors.

**`serveHTTP_coherent`**: a response has one status line, 200 or the code of the `APIError`; an
error document names the status that it is sent with.
-/

namespace SigningAgent.Rest

/-! ## Errors -/

/-- The codes of `ErrNotFound`, `ErrBadRequest`, `ErrForbidden` and `ErrInternal`. -/
inductive Code where
  | notFound
  | badRequest
  | forbidden
  | internal
  deriving DecidableEq, Repr

def Code.status : Code → Nat
  | .notFound => 404
  | .badRequest => 400
  | .forbidden => 403
  | .internal => 500

/-- `http.StatusText`. -/
def Code.text : Code → String
  | .notFound => "Not Found"
  | .badRequest => "Bad Request"
  | .forbidden => "Forbidden"
  | .internal => "Internal Server Error"

/-- An `error`: an `APIError`, which may wrap another error, one with a text only, or one of
`errors.Wrap`. -/
inductive GoError where
  | api (code : Code) (detail : String)
  | apiAround (code : Code) (detail : String) (wrapped : GoError)
  | text (message : String)
  | wrap (message : String) (cause : GoError)
  deriving DecidableEq, Repr

/-- `Error`. -/
def GoError.error : GoError → String
  | .api code _ => code.text
  | .apiAround code _ wrapped => code.text ++ ": " ++ wrapped.error
  | .text message => message
  | .wrap message cause => message ++ ": " ++ cause.error

/-- An `APIError`. -/
structure APIError where
  code : Code
  detail : String
  wrapped : Option GoError
  deriving DecidableEq, Repr

/-- `errors.As(err, &apiErr)`: the first `APIError` of the chain. -/
def GoError.asAPIError : GoError → Option APIError
  | .api code detail => some ⟨code, detail, none⟩
  | .apiAround code detail wrapped => some ⟨code, detail, some wrapped⟩
  | .text _ => none
  | .wrap _ cause => cause.asAPIError

/-- The `APIError` that is sent: an error without one is wrapped by `ErrInternal`. -/
def toAPIError (err : GoError) : APIError := err.asAPIError.getD ⟨.internal, "", some err⟩

/-- The `Detail` of `JSON`. -/
def APIError.jsonDetail (e : APIError) : String :=
  match e.detail, e.wrapped with
  | "", some wrapped => wrapped.error
  | detail, _ => detail

/-! ## Responses -/

/-- A document in a response. -/
inductive Body (α : Type) where
  | value (v : α)
  /-- for a handler that returns nil -/
  | ok (code : Nat) (msg : String)
  | error (code : Nat) (detail : String)
  deriving DecidableEq, Repr

/-- What has been written to an `http.ResponseWriter`. -/
structure Response (α : Type) where
  headers : List (String × String)
  /-- the status lines, the first of which is sent -/
  statusLines : List Nat
  body : Option (Body α)
  deriving DecidableEq, Repr

/-- The status that is sent: 200 if none was written. -/
def Response.status {α : Type} (r : Response α) : Nat := r.statusLines.headD 200

/-- The headers that `ServeHTTP` looks at. Bytes that are no UTF-8 count as U+FFFD, which is what
`strings.ToLower` makes of them. -/
structure Headers where
  connection : String
  upgrade : String
  deriving DecidableEq, Repr

/-- `unicode.ToLower`, as far as it leads into ASCII: it does so for the ASCII capitals, U+0130 and
the Kelvin sign. -/
def toLowerRune (c : Char) : Char :=
  if c = Char.ofNat 0x130 then 'i'
  else if c = Char.ofNat 0x212a then 'k'
  else c.toLower

/-- `strings.ToLower`, for the comparison with an ASCII text. -/
def toLower (s : String) : String := s.map toLowerRune

/-- The request asks for a websocket. -/
def Headers.upgrades (h : Headers) : Bool :=
  toLower h.connection = "upgrade" && toLower h.upgrade = "websocket"

section

variable {α : Type}

/-- `writeHTTPError`, after `headers`. -/
def writeHTTPError (headers : List (String × String)) (err : GoError) : Response α :=
  let apiErr := toAPIError err
  ⟨headers ++ [("X-Content-Type-Options", "nosniff")], [apiErr.code.status],
    some (.error apiErr.code.status apiErr.jsonDetail)⟩

/-- `formatJSONResp`. The JSON encoder writes the body, which sends a 200. -/
def formatJSONResp (result : Except GoError (Option α)) : Response α :=
  let headers := [("Content-Type", "application/json")]
  match result with
  | .error err => writeHTTPError headers err
  | .ok none => ⟨headers, [], some (.ok 200 "OK")⟩
  | .ok (some v) => ⟨headers, [], some (.value v)⟩

/-- `ServeHTTP` of an `appHandlerFunc`, on what the handler returns. -/
def serveHTTP (headers : Headers) (result : Except GoError (Option α)) : Response α :=
  if headers.upgrades then ⟨[], [], none⟩ else formatJSONResp result

/-- An answer says what its status says. -/
structure Coherent (r : Response α) : Prop where
  once : r.statusLines.length ≤ 1
  statuses : r.status ∈ [200, 400, 403, 404, 500]
  error : ∀ code detail, r.body = some (.error code detail) → r.status = code ∧ code ≠ 200
  value : ∀ v, r.body = some (.value v) → r.status = 200

/-- **Every response is coherent**, whatever the handler returns. -/
theorem serveHTTP_coherent (headers : Headers) (result : Except GoError (Option α)) :
    Coherent (serveHTTP headers result) := by
  unfold serveHTTP
  split
  · exact ⟨by simp, by simp [Response.status], by simp, by simp⟩
  · cases result with
    | error err =>
      have hstatus : (writeHTTPError (α := α) [("Content-Type", "application/json")] err).status =
          (toAPIError err).code.status := rfl
      refine ⟨Nat.le_refl 1, ?_, fun code detail h => ?_, fun v h => ?_⟩
      · show (toAPIError err).code.status ∈ _
        cases (toAPIError err).code <;> decide
      · have h := Body.error.inj (Option.some.inj h)
        refine ⟨hstatus.trans h.1, ?_⟩
        rw [← h.1]
        cases (toAPIError err).code <;> decide
      · cases h
    | ok v =>
      cases v <;> exact ⟨by simp [formatJSONResp], by simp [formatJSONResp, Response.status],
        by simp [formatJSONResp], fun _ _ => rfl⟩

/-! ## Handlers -/

/-- The response to what a handler comes to. A panic ends the connection. -/
def respond (headers : Headers) : Outcome GoError (Option α) → Option (Response α)
  | .ok v => some (serveHTTP headers (.ok v))
  | .error (.error e) => some (serveHTTP headers (.error e))
  | .error .panic => none

section

variable {headers : Headers}

theorem respond_upgrades {result : Outcome GoError (Option α)} {r : Response α}
    (hup : headers.upgrades = true) (h : respond headers result = some r) :
    r.status = 200 ∧ r.body = none := by
  have hserve : ∀ result, serveHTTP (α := α) headers result = ⟨[], [], none⟩ := fun result => by
    rw [serveHTTP, if_pos hup]
  unfold respond at h
  split at h
  · rw [hserve] at h
    cases h
    exact ⟨rfl, rfl⟩
  · rw [hserve] at h
    cases h
    exact ⟨rfl, rfl⟩
  · cases h

theorem respond_ok (hup : headers.upgrades = false) (v : α) :
    ∃ r, respond headers (.ok (some v)) = some r ∧ r.status = 200 ∧ r.body = some (.value v) := by
  refine ⟨_, rfl, ?_⟩
  rw [serveHTTP, if_neg (by simp [hup])]
  exact ⟨rfl, rfl⟩

theorem respond_error (hup : headers.upgrades = false) (e : GoError) :
    ∃ r, respond (α := α) headers (.error (.error e)) = some r ∧
      r.status = (toAPIError e).code.status ∧
      r.body = some (.error (toAPIError e).code.status (toAPIError e).jsonDetail) := by
  refine ⟨_, rfl, ?_⟩
  rw [serveHTTP, if_neg (by simp [hup])]
  exact ⟨rfl, rfl⟩

/-- A value in a response comes from the handler. -/
theorem respond_value {result : Outcome GoError (Option α)} {r : Response α} {v : α}
    (h : respond headers result = some r) (hv : r.body = some (.value v)) :
    result = .ok (some v) := by
  rcases result with (e | _) | v'
  · obtain rfl := Option.some.inj h
    unfold serveHTTP at hv
    split at hv <;> cases hv
  · cases h
  · obtain rfl := Option.some.inj h
    unfold serveHTTP at hv
    split at hv
    · cases hv
    · cases v' with
      | none => cases hv
      | some v' =>
        cases hv
        rfl

theorem respond_none_iff {result : Outcome GoError (Option α)} :
    respond headers result = none ↔ result = .error .panic := by
  rcases result with (e | _) | v <;> simp [respond]

end

end

end SigningAgent.Rest
