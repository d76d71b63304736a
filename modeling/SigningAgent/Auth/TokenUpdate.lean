import SigningAgent.Auth.HeaderProvider

/-!
# Updating the token (`initToken`, `refreshToken`, `getTokenDuration`)

A token is a text of three parts with a dot between them, whose second part holds an `exp` claim.
`getTokenDuration` is the time left to that claim; 0 if there is none that can be read, and negative
if it is over. `time.Unix` counts the seconds from year 1 and wraps, so that a claim past
9223371974719179007 is taken for one that was over long ago (`unixSeconds_eq`).

`initToken` stores what the server sends and then looks at its duration, of which it refuses 0
only. `refreshToken` refuses an empty token, and looks at nothing else.

* `Unexpired`: the claim, as `time.Unix` reads it, is ahead of the clock (`unexpired_iff`).
* `Decoders`: the base64 and JSON decoders. Tokens come out of a JSON answer, so they are valid
  UTF-8.
* `Clean`: a failed update leaves the header and the validity as they were, and what an update
  installs is still valid.
* **`clean_iff`**: which answers get a clean update.
-/

namespace SigningAgent.Auth

/-- What `getTokenDuration` decodes with. -/
structure Decoders where
  /-- `base64.RawURLEncoding.DecodeString` -/
  decodeSegment : List Char → Option Bytes
  /-- `json.Unmarshal` into a map, and its `exp` if that is a number, converted to `int64` -/
  expClaim : Bytes → Option Int

section

variable (dec : Decoders) (now : Int)

/-- The claim that `getTokenDuration` finds in a token. -/
def expiration (value : String) : Option Int :=
  match value.toList.splitOn '.' with
  | [_, payload, _] => (dec.decodeSegment payload).bind dec.expClaim
  | _ => none

/-- The seconds since 1970 of `time.Unix(expiration, 0)`, which has those since year 1 in an
`int64`: the sum with `unixToInternal` wraps. -/
def unixSeconds (expiration : Int) : Int :=
  (expiration + 62135596800).bmod 18446744073709551616 - 62135596800

/-- `time.Until(time.Unix(expiration, 0))` at the time `now`, in nanoseconds: it saturates. -/
def timeUntil (expiration : Int) : Int :=
  max (-9223372036854775808)
    (min 9223372036854775807 (unixSeconds expiration * 1000000000 - now))

/-- `getTokenDuration`. -/
def getTokenDuration (value : String) : Int :=
  match expiration dec value with
  | some expiration => timeUntil now expiration
  | none => 0

/-- `GetAuthHeader`. -/
def getAuthHeader (p : Provider) : List (String × List String) := [("X-Token", [p.token])]

/-- What comes back for the request of `initToken`. -/
inductive InitAnswer where
  | hmacErr (err : String)
  | requestErr (err : String)
  | response (token : String)
  deriving DecidableEq, Repr

/-- With the duration of the token. -/
def InitAnswer.timed : InitAnswer → TokenAnswer
  | .hmacErr err => .hmacErr err
  | .requestErr err => .requestErr err
  | .response token => .token token (getTokenDuration dec now token)

/-- What comes back for the request of `refreshToken`. -/
inductive RefreshAnswer where
  /-- `http.NewRequest` cannot parse the URL, and its nil request is used all the same -/
  | badURL
  | requestErr (err : String)
  | response (token : String)
  deriving DecidableEq, Repr

/-- `refreshToken`. -/
def refreshToken (answer : RefreshAnswer) (p : Provider) : Outcome Empty Bool × Provider :=
  match answer with
  | .badURL => (.error .panic, p)
  | .requestErr _ => (.ok false, p)
  | .response token =>
    if token = "" then (.ok false, p)
    else (.ok true, { p with token := token, tokenTTL := getTokenDuration dec now token })

/-- A call of one of the two functions. -/
inductive Update where
  | initToken (answer : InitAnswer)
  | refreshToken (answer : RefreshAnswer)
  deriving DecidableEq, Repr

/-- How an update ends. -/
inductive Updated where
  | succeeded
  | failed
  | panicked
  deriving DecidableEq, Repr

/-- The call. -/
def Update.exec (p : Provider) : Update → Updated × Provider
  | .initToken answer =>
    match Auth.initToken (answer.timed dec now) p with
    | (.ok (), p) => (.succeeded, p)
    | (.error _, p) => (.failed, p)
  | .refreshToken answer =>
    match Auth.refreshToken dec now answer p with
    | (.ok true, p) => (.succeeded, p)
    | (.ok false, p) => (.failed, p)
    | (.error _, p) => (.panicked, p)

end

variable {dec : Decoders} {now : Int}

/-! ## Durations -/

/-- The token has a claim that is not over. -/
def Unexpired (dec : Decoders) (now : Int) (value : String) : Prop :=
  ∃ e, expiration dec value = some e ∧ now < unixSeconds e * 1000000000

/-- The token has no claim that can be read, or one that is over at this very moment. -/
def NoDuration (dec : Decoders) (now : Int) (value : String) : Prop :=
  ∀ e, expiration dec value = some e → unixSeconds e * 1000000000 = now

/-- An `int64` is read as it is, unless the count from year 1 overflows. -/
theorem unixSeconds_eq {e : Int} (hmin : -9223372036854775808 ≤ e)
    (hmax : e ≤ 9223372036854775807) :
    unixSeconds e = if e ≤ 9223371974719179007 then e else e - 18446744073709551616 := by
  unfold unixSeconds
  split_ifs with hle
  · rw [Int.bmod_eq_of_le (by omega) (by omega)]
    omega
  · have hwrap : (e + 62135596800).bmod 18446744073709551616 =
        (e + 62135596800 - 18446744073709551616).bmod 18446744073709551616 :=
      (Int.sub_bmod_right _ _).symm
    rw [hwrap, Int.bmod_eq_of_le (by omega) (by omega)]
    omega

/-- At any time since 1970, a claim is ahead if it is later and is not so large that it wraps. -/
theorem unexpired_iff {value : String} {e : Int} (he : expiration dec value = some e)
    (hmin : -9223372036854775808 ≤ e) (hmax : e ≤ 9223372036854775807) (hnow : 0 ≤ now) :
    Unexpired dec now value ↔ e ≤ 9223371974719179007 ∧ now < e * 1000000000 := by
  unfold Unexpired
  simp only [he, Option.some.injEq, exists_eq_left']
  rw [unixSeconds_eq hmin hmax]
  split_ifs with hle
  · exact ⟨fun h => ⟨hle, h⟩, fun h => h.2⟩
  · exact iff_of_false (by omega) fun h => hle h.1

theorem getTokenDuration_pos_iff {value : String} :
    0 < getTokenDuration dec now value ↔ Unexpired dec now value := by
  unfold getTokenDuration Unexpired
  cases expiration dec value with
  | none => simp
  | some e =>
    simp only [timeUntil, Option.some.injEq, exists_eq_left']
    omega

theorem getTokenDuration_eq_zero_iff {value : String} :
    getTokenDuration dec now value = 0 ↔ NoDuration dec now value := by
  unfold getTokenDuration NoDuration
  cases expiration dec value with
  | none => simp
  | some e =>
    simp only [timeUntil, Option.some.injEq, forall_eq']
    omega

/-! ## Clean updates -/

/-- A failed update leaves the header and the validity as they were; an installed token, or
one that replaces another, is still valid. -/
structure Clean (dec : Decoders) (now : Int) (p : Provider) (u : Update) : Prop where
  keeps : (u.exec dec now p).1 = .failed →
    getAuthHeader (u.exec dec now p).2 = getAuthHeader p ∧
      (u.exec dec now p).2.tokenTTL = p.tokenTTL
  valid : (u.exec dec now p).1 = .succeeded ∨ (u.exec dec now p).2.token ≠ p.token →
    0 < getTokenDuration dec now (u.exec dec now p).2.token

/-- The answers that get a clean update. -/
def Update.Fine (dec : Decoders) (now : Int) (p : Provider) : Update → Prop
  | .initToken (.response token) => Unexpired dec now token ∨
      NoDuration dec now token ∧ token = p.token ∧ p.tokenTTL = 0
  | .refreshToken (.response token) => token = "" ∨ Unexpired dec now token
  | _ => True

/-- An update that does nothing. -/
theorem Clean.of_same {p : Provider} {u : Update} (hsame : (u.exec dec now p).2 = p)
    (hno : (u.exec dec now p).1 ≠ .succeeded) : Clean dec now p u := by
  refine ⟨fun _ => by rw [hsame]; exact ⟨rfl, rfl⟩, ?_⟩
  rintro (h | h)
  · exact absurd h hno
  · rw [hsame] at h
    exact absurd rfl h

/-- An update that installs a token. -/
theorem clean_of_installed {p : Provider} {u : Update} {token : String}
    (hexec : u.exec dec now p =
      (.succeeded, { p with token := token, tokenTTL := getTokenDuration dec now token })) :
    Clean dec now p u ↔ Unexpired dec now token := by
  rw [← getTokenDuration_pos_iff]
  constructor
  · intro h
    have := h.valid (by rw [hexec]; exact Or.inl rfl)
    rwa [hexec] at this
  · intro h
    refine ⟨fun hfail => ?_, fun _ => by rw [hexec]; exact h⟩
    rw [hexec] at hfail
    cases hfail

/-- `initToken` writes the token and its duration, whether it then refuses them or not. -/
theorem exec_initToken (p : Provider) (token : String) :
    (Update.initToken (.response token)).exec dec now p =
      (if getTokenDuration dec now token = 0 then .failed else .succeeded,
        { p with token := token, tokenTTL := getTokenDuration dec now token }) := by
  unfold Update.exec InitAnswer.timed initToken
  by_cases hzero : getTokenDuration dec now token = 0
  · simp [hzero]
  · simp [hzero]

/-- `refreshToken` writes any token that is not empty. -/
theorem exec_refreshToken (p : Provider) (token : String) :
    (Update.refreshToken (.response token)).exec dec now p =
      if token = "" then (.failed, p)
      else (.succeeded, { p with token := token, tokenTTL := getTokenDuration dec now token }) := by
  unfold Update.exec refreshToken
  by_cases hempty : token = ""
  · simp [hempty]
  · simp [hempty]

/-- A token that `initToken` refuses has been written: only the present one, without a duration
again, changes nothing. -/
theorem clean_initToken_iff (p : Provider) (token : String) :
    Clean dec now p (.initToken (.response token)) ↔ Unexpired dec now token ∨
      NoDuration dec now token ∧ token = p.token ∧ p.tokenTTL = 0 := by
  have hexec := @exec_initToken dec now p token
  by_cases hzero : getTokenDuration dec now token = 0
  · rw [if_pos hzero] at hexec
    have hexp : ¬ Unexpired dec now token := by
      rw [← getTokenDuration_pos_iff, hzero]
      exact Int.lt_irrefl 0
    constructor
    · intro h
      obtain ⟨hheader, httl⟩ := h.keeps (by rw [hexec])
      rw [hexec] at hheader httl
      have htoken : token = p.token := by simpa [getAuthHeader] using hheader
      exact Or.inr ⟨getTokenDuration_eq_zero_iff.mp hzero, htoken, httl.symm.trans hzero⟩
    · rintro (h | ⟨-, rfl, httl⟩)
      · exact absurd h hexp
      · refine Clean.of_same ?_ (by rw [hexec]; intro h; cases h)
        rw [hexec, hzero, ← httl]
  · rw [if_neg hzero] at hexec
    have hnone : ¬ NoDuration dec now token := fun h =>
      hzero (getTokenDuration_eq_zero_iff.mpr h)
    rw [clean_of_installed hexec]
    exact ⟨Or.inl, fun h => h.resolve_right fun h' => hnone h'.1⟩

theorem clean_refreshToken_iff (p : Provider) (token : String) :
    Clean dec now p (.refreshToken (.response token)) ↔ token = "" ∨ Unexpired dec now token := by
  have hexec := @exec_refreshToken dec now p token
  by_cases hempty : token = ""
  · rw [if_pos hempty] at hexec
    exact iff_of_true (Clean.of_same (by rw [hexec]) (by rw [hexec]; intro h; cases h))
      (Or.inl hempty)
  · rw [if_neg hempty] at hexec
    rw [clean_of_installed hexec]
    exact ⟨Or.inr, fun h => h.resolve_left hempty⟩

/-- **Clean updates.** An update is clean if and only if the request failed, or the token it
brought is not over yet; or it was no update: an empty token for `refreshToken`, the present one
again for `initToken`, if neither has a duration. -/
theorem clean_iff (dec : Decoders) (now : Int) (p : Provider) (u : Update) :
    Clean dec now p u ↔ u.Fine dec now p := by
  cases u with
  | initToken answer =>
    cases answer with
    | hmacErr err => exact iff_of_true (Clean.of_same rfl (by intro h; cases h)) trivial
    | requestErr err => exact iff_of_true (Clean.of_same rfl (by intro h; cases h)) trivial
    | response token => exact clean_initToken_iff p token
  | refreshToken answer =>
    cases answer with
    | badURL => exact iff_of_true (Clean.of_same rfl (by intro h; cases h)) trivial
    | requestErr err => exact iff_of_true (Clean.of_same rfl (by intro h; cases h)) trivial
    | response token => exact clean_refreshToken_iff p token

/-- The JSON text of a claim that is over at second 100. -/
def sampleClaim : Bytes := utf8 "\x7b\"exp\":100\x7d"

/-- Decoders for this claim. -/
def sampleDecoders : Decoders where
  decodeSegment segment := if segment = "eyJleHAiOjEwMH0".toList then some sampleClaim else none
  expClaim bytes := if bytes = sampleClaim then some 100 else none

/-- A provider whose token is good for a minute. -/
def sampleProvider : Provider := ⟨"workspace", [], "key", "h.eyJleHAiOjEwMH0.s", 60000000000, 1⟩

/-- **A token without a claim.** `initToken` returns an error, and has replaced the token. -/
theorem initToken_failed_replaces :
    ¬ ∀ (dec : Decoders) (now : Int) (p : Provider) (u : Update), Clean dec now p u := by
  intro hall
  have hclean := hall sampleDecoders 40000000000 sampleProvider (.initToken (.response "garbage"))
  exact absurd (hclean.keeps (by decide +kernel)) (by decide +kernel)

end SigningAgent.Auth
