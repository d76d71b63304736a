import SigningAgent.Auth.TokenUpdate
import SigningAgent.Lib.System

/-!
# The refresh loop (`Initiate` and its goroutine)

`Initiate` asks for a token and starts a ticker at half its duration. At each tick the goroutine
refreshes the token, or asks for a new one if that fails, and resets the ticker to half the new
duration; it ends when no token can be had, or when `Stop` closed its channel.

`loop` is this as a transition system. A label names what happens next with the answers of the
server and the times at which they are read, so a run is a sequence of answers under any clock.
`time.NewTicker` and `Ticker.Reset` panic on an interval that is not positive. `intervals` is what
was passed to the two.

* `step_intervals`: a step passes positive intervals just if its answers fit (`Label.Fits`).
* **`intervals_positive`**: in every run whose answers fit, every interval is positive; a step
  with an answer that does not fit passes one that is not.
* `expired_token_panics`: a run with an expired token.
-/

namespace SigningAgent.Auth

open Transition

/-- Where `Initiate` and its goroutine are: no goroutine, one that waits for its ticker, or a panic
that ended the process. -/
inductive Phase where
  | off
  | waiting
  | panicked
  deriving DecidableEq, Repr

structure Loop where
  provider : Provider
  phase : Phase
  stopped : Bool
  /-- what was passed to `NewTicker` and `Reset`, the last one first -/
  intervals : List Int
  deriving DecidableEq, Repr

/-- What happens next. -/
inductive Label where
  | initiate (workspaceID apiKeySecret apiKeyID : String) (now : Int) (answer : InitAnswer)
  /-- the ticker fires; `init` answers the request for a new token, if there is one -/
  | tick (now : Int) (refresh : RefreshAnswer) (later : Int) (init : InitAnswer)
  | stop
  /-- the goroutine finds its channel closed -/
  | leave
  deriving DecidableEq, Repr

/-- `p.tokenTTL / 2`. -/
def Provider.interval (p : Provider) : Int := p.tokenTTL.tdiv 2

/-- `ticker.Reset(p.tokenTTL / 2)`. -/
def Loop.reset (s : Loop) (p : Provider) : Loop :=
  { s with
    provider := p
    phase := if p.interval ≤ 0 then .panicked else .waiting
    intervals := p.interval :: s.intervals }

/-- The goroutine returns. -/
def Loop.leave (s : Loop) (p : Provider) : Loop :=
  { s with provider := { p with loops := p.loops - 1 }, phase := .off }

section

variable (dec : Decoders) (decodeRawURL : String → Bytes)

/-- A tick of the goroutine. -/
def tick (now : Int) (refresh : RefreshAnswer) (later : Int) (init : InitAnswer) (s : Loop) :
    Loop :=
  match refreshToken dec now refresh s.provider with
  | (.error _, p) => { s with provider := p, phase := .panicked }
  | (.ok true, p) => s.reset p
  | (.ok false, p) =>
    match initToken (init.timed dec later) p with
    | (.error _, p) => s.leave p
    | (.ok (), p) => s.reset p

def step : Label → Loop → Option Loop
  | .initiate workspaceID apiKeySecret apiKeyID now answer, s =>
    if s.phase = .off then
      match initiate decodeRawURL workspaceID apiKeySecret apiKeyID (answer.timed dec now)
          s.provider with
      | (.error (.error _), p) => some { s with provider := p }
      -- both outcomes passed `time.NewTicker(p.tokenTTL / 2)`
      | (.error .panic, p) => some { s with
          provider := p
          phase := .panicked
          intervals := p.interval :: s.intervals }
      | (.ok (), p) => some { s with
          provider := p
          phase := .waiting
          intervals := p.interval :: s.intervals }
    else none
  | .tick now refresh later init, s =>
    if s.phase = .waiting then some (tick dec now refresh later init s) else none
  | .stop, s =>
    if s.phase = .panicked then none
    -- a closed channel cannot be closed again
    else if s.stopped then some { s with phase := .panicked }
    else some { s with stopped := true }
  | .leave, s =>
    if s.phase = .waiting ∧ s.stopped = true then some (s.leave s.provider) else none

/-- Any provider before its first `Initiate`. -/
def loop : System Loop Label where
  init s := s.phase = .off ∧ s.stopped = false ∧ s.intervals = []
  step := step dec decodeRawURL

end

variable {dec : Decoders} {decodeRawURL : String → Bytes}

/-! ## Answers that fit -/

/-- The token has a claim that is two nanoseconds ahead or more. -/
def Lasts (dec : Decoders) (now : Int) (value : String) : Prop :=
  ∃ e, expiration dec value = some e ∧ now + 2 ≤ unixSeconds e * 1000000000

theorem two_le_getTokenDuration_iff {now : Int} {value : String} :
    2 ≤ getTokenDuration dec now value ↔ Lasts dec now value := by
  unfold getTokenDuration Lasts
  cases expiration dec value with
  | none => simp
  | some e =>
    simp only [timeUntil, Option.some.injEq, exists_eq_left']
    omega

/-- `initToken` refuses the answer, or its token lasts. -/
def InitAnswer.Fits (dec : Decoders) (now : Int) : InitAnswer → Prop
  | .response token => NoDuration dec now token ∨ Lasts dec now token
  | _ => True

/-- The answers that are read fit: the token of a refresh lasts, and where the refresh fails the
answer to the second request fits. -/
def Label.Fits (dec : Decoders) : Label → Prop
  | .initiate _ _ _ now answer => answer.Fits dec now
  | .tick _ .badURL _ _ => True
  | .tick _ (.requestErr _) later init => init.Fits dec later
  | .tick now (.response token) later init =>
    (token = "" → init.Fits dec later) ∧ (token ≠ "" → Lasts dec now token)
  | .stop | .leave => True

/-- The interval of a duration. -/
theorem interval_pos_iff {p : Provider} : 0 < p.interval ↔ 2 ≤ p.tokenTTL := by
  have := half_nonpos p.tokenTTL
  unfold Provider.interval
  omega

/-- What `initToken` leaves for the ticker, if it returns no error. -/
theorem initToken_fits (dec : Decoders) (now : Int) (answer : InitAnswer) (p : Provider) :
    (∃ e p', initToken (answer.timed dec now) p = (.error e, p') ∧ answer.Fits dec now) ∨
      ∃ p', initToken (answer.timed dec now) p = (.ok (), p') ∧
        (0 < p'.interval ↔ answer.Fits dec now) := by
  cases answer with
  | hmacErr err => exact Or.inl ⟨_, _, rfl, trivial⟩
  | requestErr err => exact Or.inl ⟨_, _, rfl, trivial⟩
  | response token =>
    by_cases hzero : getTokenDuration dec now token = 0
    · refine Or.inl ⟨.duration,
        { p with token := token, tokenTTL := getTokenDuration dec now token }, ?_,
        Or.inl (getTokenDuration_eq_zero_iff.mp hzero)⟩
      simp only [InitAnswer.timed, initToken, if_pos hzero]
    · refine Or.inr
        ⟨{ p with token := token, tokenTTL := getTokenDuration dec now token }, ?_, ?_⟩
      · simp only [InitAnswer.timed, initToken, if_neg hzero]
      · have hnone : ¬ NoDuration dec now token := fun h =>
          hzero (getTokenDuration_eq_zero_iff.mpr h)
        rw [interval_pos_iff]
        exact two_le_getTokenDuration_iff.trans ⟨Or.inr, fun h => h.resolve_left hnone⟩

/-- The intervals that a step passes are positive just if `fits`. -/
def Passes (s s' : Loop) (fits : Prop) : Prop :=
  ∃ passed, s'.intervals = passed ++ s.intervals ∧ ((∀ d ∈ passed, 0 < d) ↔ fits)

theorem Passes.none {s s' : Loop} {fits : Prop} (h : s'.intervals = s.intervals) (hfits : fits) :
    Passes s s' fits :=
  ⟨[], h, iff_of_true (fun _ hd => absurd hd List.not_mem_nil) hfits⟩

theorem Passes.one {s s' : Loop} {fits : Prop} {d : Int} (h : s'.intervals = d :: s.intervals)
    (hfits : 0 < d ↔ fits) : Passes s s' fits :=
  ⟨[d], h, by rw [← hfits, List.forall_mem_singleton]⟩

theorem tick_passes {now later : Int} {refresh : RefreshAnswer} {init : InitAnswer} (s : Loop) :
    Passes s (tick dec now refresh later init s)
      ((Label.tick now refresh later init).Fits dec) := by
  -- a failed refresh: the second request decides
  have hinit : (match initToken (init.timed dec later) s.provider with
      | (.error _, p) => s.leave p
      | (.ok (), p) => s.reset p) = tick dec now refresh later init s →
      Passes s (tick dec now refresh later init s) (init.Fits dec later) := by
    intro heq
    rw [← heq]
    rcases initToken_fits dec later init s.provider with ⟨e, p, hrun, hfits⟩ | ⟨p, hrun, hfits⟩
    · rw [hrun]
      exact Passes.none rfl hfits
    · rw [hrun]
      exact Passes.one rfl hfits
  cases refresh with
  | badURL => exact Passes.none rfl trivial
  | requestErr err => exact hinit rfl
  | response token =>
    by_cases hempty : token = ""
    · have hfits : (Label.tick now (.response token) later init).Fits dec =
          init.Fits dec later := by
        simp [Label.Fits, hempty]
      rw [hfits]
      refine hinit ?_
      simp only [tick, refreshToken, if_pos hempty]
    · have hfits : (Label.tick now (.response token) later init).Fits dec =
          Lasts dec now token := by
        simp [Label.Fits, hempty]
      rw [hfits]
      have htick : tick dec now (.response token) later init s = s.reset
          { s.provider with token := token, tokenTTL := getTokenDuration dec now token } := by
        simp only [tick, refreshToken, if_neg hempty]
      rw [htick]
      refine Passes.one rfl ?_
      rw [interval_pos_iff]
      exact two_le_getTokenDuration_iff

/-- What `Initiate` passes to `NewTicker`, with or without a panic there. -/
theorem initiate_fits (workspaceID apiKeySecret apiKeyID : String) (now : Int)
    (answer : InitAnswer) (p : Provider) :
    (∃ e p', initiate decodeRawURL workspaceID apiKeySecret apiKeyID (answer.timed dec now) p =
        (.error (.error e), p') ∧ answer.Fits dec now) ∨
      ∃ r p', initiate decodeRawURL workspaceID apiKeySecret apiKeyID (answer.timed dec now) p =
        (r, p') ∧ (r = .ok () ∨ r = .error .panic) ∧ (0 < p'.interval ↔ answer.Fits dec now) := by
  unfold initiate
  rcases initToken_fits dec now answer { p with
      apiKeySecret := decodeRawURL apiKeySecret
      apiKeyID := apiKeyID
      workspaceID := workspaceID } with ⟨e, p', hrun, hfits⟩ | ⟨p', hrun, hfits⟩
  · exact Or.inl ⟨e, p', by simp only [hrun], hfits⟩
  · refine Or.inr ?_
    simp only [hrun]
    split_ifs
    · exact ⟨_, _, rfl, Or.inr rfl, hfits⟩
    · exact ⟨_, _, rfl, Or.inl rfl, hfits⟩

/-- **One step.** -/
theorem step_intervals {a : Label} {s s' : Loop} (h : step dec decodeRawURL a s = some s') :
    Passes s s' (a.Fits dec) := by
  cases a with
  | initiate workspaceID apiKeySecret apiKeyID now answer =>
    simp only [step] at h
    split_ifs at h
    rcases @initiate_fits dec decodeRawURL workspaceID apiKeySecret apiKeyID now answer s.provider
      with ⟨e, p, hrun, hfits⟩ | ⟨r, p, hrun, rfl | rfl, hfits⟩
    all_goals
      rw [hrun] at h
      obtain rfl := Option.some.inj h
    · exact Passes.none rfl hfits
    · exact Passes.one rfl hfits
    · exact Passes.one rfl hfits
  | tick now refresh later init =>
    simp only [step] at h
    split_ifs at h
    obtain rfl := Option.some.inj h
    exact tick_passes s
  | stop =>
    simp only [step] at h
    split_ifs at h
    all_goals
      obtain rfl := Option.some.inj h
      exact Passes.none rfl trivial
  | leave =>
    simp only [step] at h
    split_ifs at h
    obtain rfl := Option.some.inj h
    exact Passes.none rfl trivial

/-- **The intervals of the ticker.** In every run whose answers fit, every interval passed to
`NewTicker` and `Reset` is positive. A step whose answers do not fit passes one that is not. -/
theorem intervals_positive (dec : Decoders) (decodeRawURL : String → Bytes) :
    (∀ s, (loop dec decodeRawURL).ReachableBy (fun _ a => a.Fits dec) s →
      ∀ d ∈ s.intervals, 0 < d) ∧
    ∀ s a s', (loop dec decodeRawURL).step a s = some s' → ¬ a.Fits dec →
      ∃ d ∈ s'.intervals, d ≤ 0 := by
  constructor
  · intro s hs
    refine hs.invariant (I := fun s => ∀ d ∈ s.intervals, 0 < d) (fun s h0 d hd => ?_)
      fun s a s' ih hfits hstep d hd => ?_
    · rw [h0.2.2] at hd
      cases hd
    · obtain ⟨passed, hpassed, hpos⟩ := step_intervals hstep
      rw [hpassed, List.mem_append] at hd
      exact hd.elim (hpos.mpr hfits d) (ih d)
  · intro s a s' hstep hfits
    obtain ⟨passed, hpassed, hpos⟩ := step_intervals hstep
    by_contra hnone
    refine hfits (hpos.mp fun d hd => ?_)
    exact Int.not_le.mp fun hle =>
      hnone ⟨d, by rw [hpassed]; exact List.mem_append_left _ hd, hle⟩

/-- The server grants a token for a minute, and then refreshes it with one that is over. -/
def expiringRun : List Label :=
  [.initiate "workspace" "secret" "key" 40000000000 (.response "h.eyJleHAiOjEwMH0.s"),
    .tick 110000000000 (.response "h.eyJleHAiOjEwMH0.s") 110000000000 (.requestErr "")]

/-- **An expired token** makes `Ticker.Reset` panic. -/
theorem expired_token_panics :
    ¬ ∀ (dec : Decoders) (decodeRawURL : String → Bytes) (s : Loop),
      (loop dec decodeRawURL).Reachable s → ∀ d ∈ s.intervals, 0 < d := by
  intro hall
  obtain ⟨s, hs, hneg⟩ := System.exists_reachable (M := loop sampleDecoders utf8)
    (s := ⟨⟨"", [], "", "", 0, 0⟩, .off, false, []⟩) ⟨rfl, rfl, rfl⟩ expiringRun
    (fun s => s.intervals.any (· ≤ 0)) (by decide +kernel)
  obtain ⟨d, hd, hle⟩ := List.any_eq_true.mp hneg
  have := hall sampleDecoders utf8 s hs d hd
  have := of_decide_eq_true hle
  omega

end SigningAgent.Auth
