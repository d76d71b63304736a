import SigningAgent.Auth.RefreshLoop

/-!
# How late a refresh may be (`Initiate`, `refreshToken`, `GetAuthHeader`)

The ticker is set to half of the token's validity, so the other half is what is left for the tick,
the request and its answer. Here the loop of `RefreshLoop.lean` runs under a clock, and its answers
are late: the one that a tick asks for is read at most `D` after the tick is due. All times are
nanoseconds.

* `Timed`: the loop, the clock, and when the ticker fires next. Time passes at will, but a waiting
  loop is not kept waiting past `due + D`. A tick may also come early: `Reset` leaves one that is
  in the channel already.
* `Label.Lasting T`: the tokens that are installed last `T` or more when they are read.
* `step_token`: what a step leaves as the token of a waiting loop.
* **`header_fresh_iff`**: the header of a waiting loop never has a token that is over, in any run,
  if and only if `2 * D < T`.

Not here: a loop that has ended. Nothing refreshes its token.
-/

namespace SigningAgent.Auth

open Transition

/-! ## The loop under a clock -/

/-- When the answer of a step is read. -/
def Label.readAt : Label → Option Int
  | .initiate _ _ _ now _ => some now
  | .tick now .badURL _ _ => some now
  | .tick _ (.requestErr _) later _ => some later
  | .tick now (.response token) later _ => some (if token = "" then later else now)
  | .stop | .leave => none

structure Timed where
  loop : Loop
  clock : Int
  /-- when the ticker fires next -/
  due : Int
  deriving DecidableEq, Repr

inductive Event where
  /-- time passes -/
  | wait (d : Nat)
  | act (a : Label)
  deriving DecidableEq, Repr

/-- The loop is not waiting, or its tick is at most `D` late at the time `t`. -/
def Timed.InTime (D : Nat) (t : Int) (s : Timed) : Prop :=
  s.loop.phase = .waiting → t ≤ s.due + D

instance (D : Nat) (t : Int) (s : Timed) : Decidable (s.InTime D t) :=
  inferInstanceAs (Decidable (_ → _))

section

variable (dec : Decoders) (decodeRawURL : String → Bytes) (D : Nat)

def Timed.step : Event → Timed → Option Timed
  | .wait d, s =>
    if s.InTime D (s.clock + d) then some { s with clock := s.clock + d } else none
  | .act a, s =>
    match a.readAt with
    | none => (Auth.step dec decodeRawURL a s.loop).map fun l => { s with loop := l }
    | some t =>
      -- the validity counts from `t`, and half of it goes to the ticker
      if s.clock ≤ t ∧ s.InTime D t then
        (Auth.step dec decodeRawURL a s.loop).map fun l => ⟨l, t, t + l.provider.interval⟩
      else none

/-- The loop from its start, at any time. -/
def timed : System Timed Event where
  init s := (Auth.loop dec decodeRawURL).init s.loop
  step := Timed.step dec decodeRawURL D

end

/-! ## Tokens that last -/

/-- `initToken` refuses the answer, or its token lasts `T`. -/
def InitAnswer.Lasting (dec : Decoders) (T : Nat) (now : Int) : InitAnswer → Prop
  | .response token => NoDuration dec now token ∨ T ≤ getTokenDuration dec now token
  | _ => True

/-- The tokens that the step installs last `T`. -/
def Label.Lasting (dec : Decoders) (T : Nat) : Label → Prop
  | .initiate _ _ _ now answer => answer.Lasting dec T now
  | .tick _ .badURL _ _ => True
  | .tick _ (.requestErr _) later init => init.Lasting dec T later
  | .tick now (.response token) later init =>
    (token = "" → init.Lasting dec T later) ∧
      (token ≠ "" → T ≤ getTokenDuration dec now token)
  | .stop | .leave => True

def Event.Lasting (dec : Decoders) (T : Nat) : Event → Prop
  | .wait _ => True
  | .act a => a.Lasting dec T

variable {dec : Decoders} {decodeRawURL : String → Bytes} {D T : Nat}

/-- The token of the provider was read at `t`, and lasted `T` then. -/
def Provider.ReadAt (dec : Decoders) (T : Nat) (t : Int) (p : Provider) : Prop :=
  p.tokenTTL = getTokenDuration dec t p.token ∧ T ≤ p.tokenTTL

/-- A successful `initToken`. -/
theorem initToken_readAt {now : Int} {answer : InitAnswer} {p p' : Provider}
    (hlast : answer.Lasting dec T now) (h : initToken (answer.timed dec now) p = (.ok (), p')) :
    p'.ReadAt dec T now := by
  cases answer with
  | hmacErr err => simp [InitAnswer.timed, initToken] at h
  | requestErr err => simp [InitAnswer.timed, initToken] at h
  | response token =>
    simp only [InitAnswer.timed, initToken] at h
    split_ifs at h with hzero
    · simp at h
    · obtain ⟨-, rfl⟩ := Prod.mk.inj h
      refine ⟨rfl, hlast.resolve_left fun hnone => hzero ?_⟩
      exact getTokenDuration_eq_zero_iff.mpr hnone

/-- A tick after which the loop still waits. -/
theorem tick_readAt {now later : Int} {refresh : RefreshAnswer} {init : InitAnswer} {s : Loop}
    (hlast : (Label.tick now refresh later init).Lasting dec T)
    (hw : (tick dec now refresh later init s).phase = .waiting) :
    ∃ t, (Label.tick now refresh later init).readAt = some t ∧
      (tick dec now refresh later init s).provider.ReadAt dec T t := by
  -- a failed refresh: the second request brings the token
  have hinit : init.Lasting dec T later →
      refreshToken dec now refresh s.provider = (.ok false, s.provider) →
      (tick dec now refresh later init s).provider.ReadAt dec T later := by
    intro hinit hrefresh
    simp only [tick, hrefresh] at hw ⊢
    cases hrun : initToken (init.timed dec later) s.provider with
    | mk r p =>
      rw [hrun] at hw
      cases r with
      | error e => simp [Loop.leave] at hw
      | ok u => exact initToken_readAt hinit hrun
  cases refresh with
  | badURL => simp [tick, refreshToken] at hw
  | requestErr err => exact ⟨later, rfl, hinit hlast rfl⟩
  | response token =>
    by_cases hempty : token = ""
    · exact ⟨later, by simp [Label.readAt, hempty],
        hinit (hlast.1 hempty) (by simp [refreshToken, hempty])⟩
    · refine ⟨now, by simp [Label.readAt, hempty], ?_⟩
      simp only [tick, refreshToken, if_neg hempty]
      exact ⟨rfl, hlast.2 hempty⟩

/-- **What a step leaves to a waiting loop.** A token that was just read, or the one that was
there. -/
theorem step_token {a : Label} {s s' : Loop} (hlast : a.Lasting dec T)
    (h : step dec decodeRawURL a s = some s') (hw : s'.phase = .waiting) :
    (∃ t, a.readAt = some t ∧ s'.provider.ReadAt dec T t) ∨
      a.readAt = none ∧ s'.provider = s.provider ∧ s.phase = .waiting := by
  cases a with
  | initiate workspaceID apiKeySecret apiKeyID now answer =>
    refine Or.inl ⟨now, rfl, ?_⟩
    simp only [step, initiate] at h
    split_ifs at h with hoff
    cases hrun : initToken (answer.timed dec now) { s.provider with
        apiKeySecret := decodeRawURL apiKeySecret
        apiKeyID := apiKeyID
        workspaceID := workspaceID } with
    | mk r p =>
      rw [hrun] at h
      cases r with
      | error e =>
        obtain rfl := Option.some.inj h
        exact absurd (hoff.symm.trans hw) (by simp)
      | ok u =>
        have hread := initToken_readAt hlast hrun
        by_cases hle : p.tokenTTL.tdiv 2 ≤ 0
        · simp only [if_pos hle] at h
          obtain rfl := Option.some.inj h
          simp at hw
        · simp only [if_neg hle] at h
          obtain rfl := Option.some.inj h
          exact hread
  | tick now refresh later init =>
    simp only [step] at h
    split_ifs at h
    obtain rfl := Option.some.inj h
    exact Or.inl (tick_readAt hlast hw)
  | stop =>
    simp only [step] at h
    split_ifs at h
    · obtain rfl := Option.some.inj h
      simp at hw
    · obtain rfl := Option.some.inj h
      exact Or.inr ⟨rfl, rfl, hw⟩
  | leave =>
    simp only [step] at h
    split_ifs at h
    obtain rfl := Option.some.inj h
    simp [Loop.leave] at hw

/-! ## The header -/

/-- The loop is not waiting, or its token lasts until the next answer, however late. -/
def Timed.Safe (dec : Decoders) (D : Nat) (s : Timed) : Prop :=
  s.loop.phase = .waiting →
    s.clock ≤ s.due + D ∧ Unexpired dec (s.due + D) s.loop.provider.token

/-- Half the validity and `D` do not use up a validity of more than `2 * D`. -/
theorem Provider.ReadAt.unexpired {p : Provider} {t : Int} (h : p.ReadAt dec T t)
    (hlate : 2 * D < T) : Unexpired dec (t + p.interval + D) p.token := by
  obtain ⟨httl, hlong⟩ := h
  have hhalf : p.interval = p.tokenTTL / 2 := Int.tdiv_eq_ediv_of_nonneg (by omega)
  obtain ⟨e, he, -⟩ := getTokenDuration_pos_iff.mp (by omega : 0 < getTokenDuration dec t p.token)
  refine ⟨e, he, ?_⟩
  have hleft : p.tokenTTL = timeUntil t e := by
    rw [httl, getTokenDuration, he]
  unfold timeUntil at hleft
  omega

theorem Provider.ReadAt.interval_nonneg {p : Provider} {t : Int} (h : p.ReadAt dec T t) :
    0 ≤ p.interval :=
  Int.tdiv_nonneg (by have := h.2; omega) (by decide)

/-- **One step.** -/
theorem Timed.Safe.step (hlate : 2 * D < T) {s s' : Timed} {x : Event} (hs : s.Safe dec D)
    (hlast : x.Lasting dec T) (h : Timed.step dec decodeRawURL D x s = some s') :
    s'.Safe dec D := by
  intro hw
  cases x with
  | wait d =>
    simp only [Timed.step] at h
    split_ifs at h with htime
    obtain rfl := Option.some.inj h
    exact ⟨htime hw, (hs hw).2⟩
  | act a =>
    simp only [Timed.step] at h
    cases hread : a.readAt with
    | none =>
      rw [hread] at h
      obtain ⟨l, hl, rfl⟩ := Option.map_eq_some_iff.mp h
      obtain ⟨t, ht, -⟩ | ⟨-, hp, hwait⟩ := step_token hlast hl hw
      · rw [hread] at ht
        cases ht
      · simp only [hp]
        exact hs hwait
    | some t =>
      rw [hread] at h
      simp only at h
      split_ifs at h
      obtain ⟨l, hl, rfl⟩ := Option.map_eq_some_iff.mp h
      obtain ⟨t', ht, hp⟩ | ⟨hnone, -⟩ := step_token hlast hl hw
      · obtain rfl : t = t' := Option.some.inj (hread.symm.trans ht)
        have := hp.interval_nonneg
        refine ⟨?_, hp.unexpired hlate⟩
        simp only
        omega
      · rw [hread] at hnone
        cases hnone

/-- The header has one token, and it is not over. -/
def Timed.Fresh (dec : Decoders) (s : Timed) : Prop :=
  ∃ token, getAuthHeader s.loop.provider = [("X-Token", [token])] ∧ Unexpired dec s.clock token

theorem Timed.Safe.fresh {s : Timed} (h : s.Safe dec D) (hw : s.loop.phase = .waiting) :
    s.Fresh dec := by
  obtain ⟨hclock, e, he, hlt⟩ := h hw
  exact ⟨_, rfl, e, he, by omega⟩

/-- A provider before its first `Initiate`. -/
def Timed.start (t : Int) : Timed := ⟨⟨⟨"", [], "", "", 0, 0⟩, .off, false, []⟩, t, 0⟩

/-- It waits for its first tick, with a token that was read at `t` and lasted `T` then. -/
def Timed.first (decodeRawURL : String → Bytes) (T : Nat) (t clock : Int) (token : String) :
    Timed :=
  ⟨⟨⟨"", decodeRawURL "", "", token, T, 1⟩, .waiting, false, [(T / 2 : Nat)]⟩, clock,
    t + (T / 2 : Nat)⟩

theorem step_start {t : Int} {token : String} (hT : 2 ≤ T)
    (httl : getTokenDuration dec t token = T) :
    Timed.step dec decodeRawURL D (.act (.initiate "" "" "" t (.response token)))
      (Timed.start t) = some (Timed.first decodeRawURL T t t token) := by
  have hhalf : (T : Int).tdiv 2 = (T / 2 : Nat) := Int.tdiv_eq_ediv_of_nonneg (by omega)
  have hinit (p : Provider) : initToken (.token token T) p =
      (.ok (), { p with token := token, tokenTTL := T }) := by
    simp only [initToken, if_neg (show (T : Int) ≠ 0 by omega)]
  have hinitiate : Auth.step dec decodeRawURL (.initiate "" "" "" t (.response token))
      (Timed.start t).loop = some (Timed.first decodeRawURL T t t token).loop := by
    have hpos : ¬ ((T / 2 : Nat) : Int) ≤ 0 := by omega
    simp only [Auth.step, Timed.start, if_true, initiate, InitAnswer.timed, httl, hinit, hhalf,
      if_neg hpos, Provider.interval]
    rfl
  have htime : t ≤ t ∧ (Timed.start t).InTime D t := ⟨Int.le_refl t, fun h => by cases h⟩
  simp only [Timed.step, Label.readAt, hinitiate]
  rw [if_pos (show (Timed.start t).clock ≤ t ∧ (Timed.start t).InTime D t from htime)]
  simp only [Option.map_some, Timed.first, Provider.interval, hhalf]

theorem step_first {t : Int} {token : String} :
    Timed.step dec decodeRawURL D (.wait (T / 2 + D)) (Timed.first decodeRawURL T t t token) =
      some (Timed.first decodeRawURL T t (t + (T / 2 : Nat) + D) token) := by
  have hclock : (Timed.first decodeRawURL T t t token).clock + (T / 2 + D : Nat) =
      t + (T / 2 : Nat) + D := by
    simp only [Timed.first]
    omega
  have htime : (Timed.first decodeRawURL T t t token).InTime D
      ((Timed.first decodeRawURL T t t token).clock + (T / 2 + D : Nat)) :=
    fun _ => Int.le_of_eq hclock
  simp only [Timed.step]
  rw [if_pos htime, hclock]
  rfl

/-- **The latest tick.** A loop gets a token that lasts `T`, and its tick is `D` late. -/
theorem reachableBy_first {t : Int} {token : String} (hT : 2 ≤ T)
    (httl : getTokenDuration dec t token = T) :
    (timed dec decodeRawURL D).ReachableBy (fun _ x => x.Lasting dec T)
      (Timed.first decodeRawURL T t (t + (T / 2 : Nat) + D) token) := by
  have hstart : (timed dec decodeRawURL D).ReachableBy (fun _ x => x.Lasting dec T)
      (Timed.start t) := .init ⟨rfl, rfl, rfl⟩
  have hlast : (Event.act (.initiate "" "" "" t (.response token))).Lasting dec T :=
    Or.inr (Int.le_of_eq httl.symm)
  have hwait : (Event.wait (T / 2 + D)).Lasting dec T := trivial
  have hgot := hstart.step hlast (step_start hT httl)
  exact hgot.step hwait (@step_first dec decodeRawURL D T t token)

/-- **How late a refresh may be.** Take any `T` that a token can last. The header of a waiting loop
never has a token that is over, in any run whose tokens last `T` or more, if and only if twice the
delay is less than `T`. -/
theorem header_fresh_iff (hT : 2 ≤ T) (hmax : T ≤ 9223372036854775807)
    (htoken : ∃ token e, expiration dec token = some e) :
    (∀ s, (timed dec decodeRawURL D).ReachableBy (fun _ x => x.Lasting dec T) s →
      s.loop.phase = .waiting → s.Fresh dec) ↔ 2 * D < T := by
  constructor
  · intro hall
    by_contra hlate
    obtain ⟨token, e, he⟩ := htoken
    -- read the token when it has just `T` left
    have httl : getTokenDuration dec (unixSeconds e * 1000000000 - T) token = T := by
      simp only [getTokenDuration, he, timeUntil]
      omega
    obtain ⟨token', hheader, e', he', hlt⟩ := hall _ (reachableBy_first hT httl) rfl
    obtain rfl : token = token' := by simpa [getAuthHeader, Timed.first] using hheader
    obtain rfl : e = e' := Option.some.inj (he.symm.trans he')
    simp only [Timed.first] at hlt
    omega
  · intro hlate s hs hw
    have hsafe : s.Safe dec D := by
      refine hs.invariant (I := fun s => s.Safe dec D) (fun s h0 hw => ?_)
        fun s x s' hs hlast hstep => hs.step hlate hlast hstep
      rw [h0.1] at hw
      cases hw
    exact hsafe.fresh hw

/-- Tokens of a minute, and answers that come within a second. -/
theorem header_fresh_minute :
    (∀ s, (timed sampleDecoders utf8 1000000000).ReachableBy
      (fun _ x => x.Lasting sampleDecoders 60000000000) s →
      s.loop.phase = .waiting → s.Fresh sampleDecoders) ↔ 2 * 1000000000 < 60000000000 :=
  header_fresh_iff (by decide) (by decide) ⟨"h.eyJleHAiOjEwMH0.s", 100, by decide +kernel⟩

end SigningAgent.Auth
