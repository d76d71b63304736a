import SigningAgent.Auth.TokenUpdate
import SigningAgent.Defs
import SigningAgent.Hub.Stop
import SigningAgent.Lib.Retry

/-!
# Connecting to the source (`internal/hub/feed_source.go`)

`Connect` dials until it has a connection or `reconnectIntervalMax` is over, with a pause of
`reconnectInterval` after each failure. `Run` calls it once, `Listen` after each read error.

* The clock and the server are parameters: what `time.Since` shows at the `i`-th test of the loop,
  the header provider at the `i`-th dial, and the server's answer to what is dialled.
* `time.Sleep` lasts as long as it is told at least (`Net.Sleeps`).
* `connection` counts the successful dials, as in `Stop.lean`; `dials` are all of them.

Results:
* **`connect_returns`**: `Connect` returns; true exactly if a dial succeeds that begins in time. It
  leaves the state OPEN or CLOSED accordingly. It makes no more dials than there is time for, each
  with the token that the header provider holds then.
* `connect_steps`: these are steps of `Stop.lean`, where the environment chooses the result of each
  dial and when to give up.
-/

namespace SigningAgent.Hub.Stopping

open Auth Transition

/-- `WebSocketConfig`, as far as the source uses it: the times are in seconds. -/
structure WebSocketConfig where
  qredoWebsocket : String
  reconnectTimeOut : Int
  reconnectInterval : Int
  deriving DecidableEq, Repr

/-- What a dial sends. -/
structure Dial where
  url : String
  header : List (String × List String)
  deriving DecidableEq, Repr

structure WebsocketSource where
  feedUrl : String
  shouldReconnect : Bool
  readyState : ReadyState
  reconnectIntervalMax : Int
  reconnectInterval : Int
  connection : Nat
  dials : List Dial
  deriving DecidableEq

/-- `NewWebsocketSource`. -/
def newWebsocketSource (config : WebSocketConfig) : WebsocketSource where
  feedUrl := config.qredoWebsocket
  shouldReconnect := true
  readyState := .closed
  reconnectIntervalMax := seconds config.reconnectTimeOut
  reconnectInterval := seconds config.reconnectInterval
  connection := 0
  dials := []

/-- The clock, the header provider and the server during one `Connect`. -/
structure Net where
  /-- `time.Since(startTime)`, at the `i`-th test -/
  since : Nat → Int
  provider : Nat → Provider
  /-- the `i`-th dial succeeds -/
  accepts : Nat → Dial → Bool

section

variable (net : Net)

/-- What the `i`-th dial sends. -/
def Net.dial (i : Nat) (s : WebsocketSource) : Dial := ⟨s.feedUrl, getAuthHeader (net.provider i)⟩

/-- `dial`: whether it returned nil. -/
def dial (i : Nat) (s : WebsocketSource) : Bool × WebsocketSource :=
  let s' := { s with dials := s.dials ++ [net.dial i s] }
  if net.accepts i (net.dial i s) then
    (true, { s' with connection := s.connection + 1, readyState := .opened })
  else (false, s')

/-- The loop of `Connect`, from its `i`-th test on, and what comes after it. -/
def connectLoop : (fuel i : Nat) → WebsocketSource → Option (Bool × WebsocketSource)
  | 0, _, _ => none
  | fuel + 1, i, s =>
    if net.since i < s.reconnectIntervalMax then
      match dial net i s with
      | (true, s) => some (true, s)
      -- `time.Sleep(w.reconnectInterval)`
      | (false, s) => connectLoop fuel (i + 1) s
    else some (false, { s with readyState := .closed })

/-- `Connect`. -/
def connect (fuel : Nat) (s : WebsocketSource) : Option (Bool × WebsocketSource) :=
  connectLoop net fuel 0 { s with readyState := .connecting }

/-- The clock goes on by the pause at least after a failed dial. -/
structure Net.Sleeps (s : WebsocketSource) : Prop where
  start : 0 ≤ net.since 0
  pause : ∀ i, net.accepts i (net.dial i s) = false →
    net.since i + s.reconnectInterval ≤ net.since (i + 1)

end

variable {net : Net} {s : WebsocketSource}

/-! ## The loop -/

/-- The loop as one that tries until a deadline. -/
def Net.inTime (net : Net) (s : WebsocketSource) (i : Nat) : Bool :=
  decide (net.since i < s.reconnectIntervalMax)

def Net.ok (net : Net) (s : WebsocketSource) (i : Nat) : Bool := net.accepts i (net.dial i s)

/-- The source after `n` dials, which ended with this result. -/
def WebsocketSource.after (s : WebsocketSource) (net : Net) (n : Nat) (ok : Bool) :
    WebsocketSource :=
  { s with
    readyState := if ok then .opened else .closed
    connection := if ok then s.connection + 1 else s.connection
    dials := s.dials ++ (List.range n).map fun i => net.dial i s }

/-- The source after `i` dials that failed. -/
def WebsocketSource.during (s : WebsocketSource) (net : Net) (i : Nat) : WebsocketSource :=
  { s with
    readyState := .connecting
    dials := s.dials ++ (List.range i).map fun i => net.dial i s }

/-- One more dial. -/
theorem dials_succ (net : Net) (s : WebsocketSource) (i : Nat) :
    (s.during net i).dials ++ [net.dial i s] =
      s.dials ++ (List.range (i + 1)).map fun i => net.dial i s := by
  rw [List.range_succ, List.map_append, ← List.append_assoc]
  rfl

theorem dial_during (net : Net) (s : WebsocketSource) (i : Nat) :
    dial net i (s.during net i) =
      if net.ok s i then (true, s.after net (i + 1) true) else (false, s.during net (i + 1)) := by
  have hdials := dials_succ net s i
  unfold dial
  rw [show net.dial i (s.during net i) = net.dial i s from rfl]
  unfold Net.ok
  split <;> simp only [hdials] <;> rfl

/-- **The loop of `Connect`** tries until its deadline. -/
theorem connectLoop_eq (fuel i : Nat) : connectLoop net fuel i (s.during net i) =
    (Retry.loop (net.inTime s) (net.ok s) fuel i).map fun r => (r.1, s.after net r.2 r.1) := by
  induction fuel generalizing i with
  | zero => rfl
  | succ fuel ih =>
    rw [connectLoop, Retry.loop, dial_during]
    by_cases ht : net.since i < s.reconnectIntervalMax
    · rw [if_pos (show net.inTime s i = true from decide_eq_true ht)]
      rw [if_pos (show net.since i < (s.during net i).reconnectIntervalMax from ht)]
      cases hok : net.ok s i with
      | true => rfl
      | false =>
        simp only [Bool.false_eq_true, if_false]
        exact ih (i + 1)
    · rw [if_neg (show ¬ net.inTime s i = true from fun h => ht (of_decide_eq_true h))]
      rw [if_neg (show ¬ net.since i < (s.during net i).reconnectIntervalMax from ht)]
      rfl

/-- `Connect`, if its loop ends at the `n`-th test. -/
theorem connect_eq {n fuel : Nat} (h : Retry.Until (net.inTime s) (net.ok s) n)
    (hfuel : n < fuel) : connect net fuel s = some (net.inTime s n,
      s.after net (if net.inTime s n then n + 1 else n) (net.inTime s n)) := by
  have hloop := @connectLoop_eq net s fuel 0
  rw [Retry.loop_eq h (Nat.zero_le n) (by omega)] at hloop
  have hstart : s.during net 0 = { s with readyState := .connecting } := by
    simp [WebsocketSource.during]
  rw [connect, ← hstart, hloop]
  cases net.inTime s n <;> rfl

/-! ## `Connect` returns -/

/-- **`Connect` returns.** With a pause that is positive it ends, and returns true exactly if a dial
succeeds before which the time was never up. Then the state is OPEN and there is one connection
more, else it is CLOSED. Each dial sends what the header provider holds then, and the pauses before
it fit into the time. -/
theorem connect_returns (hpause : 0 < s.reconnectInterval) (hsleeps : net.Sleeps s) :
    ∃ (r : Bool) (n : Nat) (s' : WebsocketSource),
      (∃ enough, ∀ fuel, enough ≤ fuel → connect net fuel s = some (r, s')) ∧
      (r = true ↔ ∃ i, net.accepts i (net.dial i s) = true ∧
        ∀ j, j ≤ i → net.since j < s.reconnectIntervalMax) ∧
      s'.readyState = (if r then .opened else .closed) ∧
      s'.connection = s.connection + (if r then 1 else 0) ∧
      s'.dials = s.dials ++ (List.range n).map (fun i => net.dial i s) ∧
      ∀ i : Nat, i < n → i * s.reconnectInterval < s.reconnectIntervalMax := by
  obtain ⟨n, hn⟩ : ∃ n, Retry.Until (net.inTime s) (net.ok s) n :=
    Retry.exists_until hsleeps.start hsleeps.pause hpause
  refine ⟨net.inTime s n, if net.inTime s n then n + 1 else n, _,
    ⟨n + 1, fun fuel hfuel => connect_eq hn (by omega)⟩, ?_, rfl, ?_, rfl, ?_⟩
  · refine (Retry.until_inTime_iff hn).trans (exists_congr fun i => and_congr_right fun _ => ?_)
    exact forall_congr' fun j => imp_congr_right fun _ => decide_eq_true_iff
  · cases net.inTime s n <;> rfl
  · intro i hi
    refine Retry.until_lt hsleeps.start hsleeps.pause hn ?_
    cases ht : net.inTime s n with
    | true =>
      rw [ht, if_pos rfl] at hi
      by_cases hin : i = n
      · exact Or.inr ⟨hin, of_decide_eq_true ht⟩
      · exact Or.inl (by omega)
    | false =>
      rw [ht] at hi
      exact Or.inl hi

/-! ## The loop of `Stop.lean` -/

/-- The state of `Stop.lean` when `Connect` has returned. -/
def State.connected (t : State) (r : Bool) (s : WebsocketSource) : State :=
  { t with
    listen := if r then .reading else .closing
    readyState := s.readyState
    connection := s.connection }

theorem connectLoop_steps {fuel i : Nat} {r : Bool} {s' : WebsocketSource} {t : State}
    (h : connectLoop net fuel i s = some (r, s')) (ht : t.listen = .connecting)
    (hc : t.connection = s.connection) :
    ∃ labels, stopping.run labels t = some (t.connected r s') := by
  induction fuel generalizing i s with
  | zero => cases h
  | succ fuel ih =>
    rw [connectLoop] at h
    split at h
    · unfold dial at h
      cases hok : net.accepts i (net.dial i s) with
      | true =>
        simp only [hok, if_true, Option.some.injEq, Prod.mk.injEq] at h
        obtain ⟨rfl, rfl⟩ := h
        refine ⟨[.dial true, .setOpen], ?_⟩
        simp [System.run, stopping, step, ht, hc, State.connected]
      | false =>
        simp only [hok, Bool.false_eq_true, if_false] at h
        obtain ⟨labels, hrun⟩ := ih h hc
        refine ⟨.dial false :: labels, ?_⟩
        rw [System.run, show stopping.step (.dial false) t = some t from ?_]
        · exact hrun
        · simp [stopping, step, ht]
    · obtain ⟨rfl, rfl⟩ := Prod.mk.inj (Option.some.inj h)
      refine ⟨[.timeOut, .setClosed], ?_⟩
      simp [System.run, stopping, step, ht, hc, State.connected]

/-- **`Connect` in the steps of `Listen`**: from the state after a read error, while no `Stop`
moves. -/
theorem connect_steps {fuel : Nat} {r : Bool} {s' : WebsocketSource} {t : State}
    (h : connect net fuel s = some (r, s')) (ht : t.listen = .passed)
    (hc : t.connection = s.connection) :
    ∃ labels, stopping.run (.setConnecting :: labels) t = some (t.connected r s') := by
  have hstep : stopping.step .setConnecting t =
      some { t with listen := .connecting, readyState := .connecting } := by
    simp [stopping, step, ht]
  obtain ⟨labels, hrun⟩ := connectLoop_steps (t := { t with
    listen := .connecting, readyState := .connecting }) h rfl hc
  exact ⟨labels, by rw [System.run, hstep]; exact hrun⟩

/-! ## A sample -/

/-- A server that accepts the fourth dial; the token is refreshed after two. -/
def sampleNet : Net where
  since i := i * 6000000000
  provider i := ⟨"", [], "", if i < 2 then "old" else "new", 0, 1⟩
  accepts i _ := decide (i = 3)

/-- The default configuration. -/
def sampleConfig : WebSocketConfig := ⟨"wss://feed", 300, 5⟩

theorem connect_returns_sample :
    ∃ (r : Bool) (n : Nat) (s' : WebsocketSource), (∃ enough, ∀ fuel, enough ≤ fuel →
      connect sampleNet fuel (newWebsocketSource sampleConfig) = some (r, s')) ∧
      r = true ∧ s'.readyState = .opened ∧ n ≤ 60 := by
  have hsleeps : sampleNet.Sleeps (newWebsocketSource sampleConfig) := by
    refine ⟨by decide, fun i _ => ?_⟩
    have hinterval : (newWebsocketSource sampleConfig).reconnectInterval = 5000000000 := by
      decide +kernel
    simp only [sampleNet, hinterval]
    omega
  obtain ⟨r, n, s', hends, hr, hready, -, -, hbound⟩ :=
    @connect_returns sampleNet (newWebsocketSource sampleConfig) (by decide +kernel) hsleeps
  have htrue : r = true := by
    refine hr.mpr ⟨3, rfl, fun j hj => ?_⟩
    have hmax : (newWebsocketSource sampleConfig).reconnectIntervalMax = 300000000000 := by
      decide +kernel
    simp only [sampleNet, hmax]
    omega
  refine ⟨r, n, s', hends, htrue, by rw [hready, htrue]; rfl, ?_⟩
  by_contra hmany
  exact absurd (hbound 60 (by omega)) (by decide +kernel)

end SigningAgent.Hub.Stopping
