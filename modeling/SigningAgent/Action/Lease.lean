import SigningAgent.Action.OwnLock
import SigningAgent.AutoApprover.Termination
import SigningAgent.Lib.Leases

/-!
# How long a lock protects an action

A redsync lock is a lease: the Redis key of the mutex expires by itself some time after `Lock`,
8 seconds unless an option of `NewMutex` says otherwise, and `ShouldHandleAction` gives it none.
Nothing extends it while a handler works under it. `Handlers.lean` and `OwnLock.lean` take it that
the lock of a handler lasts until its `Release`. Here the calls of `OwnLock.lean` run under a clock,
and a lock ends `L` nanoseconds after it was taken, whatever its handler does.

* `Exclusive`: handlers of one action, on whatever agents, do not work under its lock together.
* `lawful`: the handlers and their locks are processes with leases, in the sense of `Leases.lean`.
* **`exclusive_iff`**: in every undisturbed run in which no handler keeps its lock for longer than
  `H`, handlers are exclusive if and only if `H < L`.
* **`failing_not_exclusive`**: the auto-approver keeps its lock from the first call of the signer to
  the last one. If the signer always fails, that is at least `RetryIntervalMax`, so a lease that is
  no longer than this setting does not protect the action, whatever the retry interval is: in some
  run another agent takes the lock and calls the signer during one of these calls (`BothSigning`).
-/

namespace SigningAgent.Action

open Transition

/-! ## Locks as leases -/

/-- The handler is between `AcquireLock` and `Release`. -/
def Under (s : State) (h : Nat) : Prop :=
  ∃ c, s.handlers[h]? = some c ∧ c.phase.holding = true

/-- The handler whose lock Redis has under the key. -/
def lockOwner (key : String) (s : State) : Option Nat :=
  match s.sync.redis key with
  | some (.lock v) => some v
  | _ => none

/-- The key expires. -/
def loseLock (key : String) (s : State) : State :=
  { s.emit (.expired key) with sync := s.sync.expire key }

/-- The handlers with their locks. -/
def leasing : Leasing State Call Nat String where
  under := Under
  takes
    | .acquireLock h _ => some h
    | _ => none
  owner := lockOwner
  revoke := loseLock

variable {messageCache : Bool} {s s' : State} {h : Nat} {c : Handler}

/-- A handler moves on: nobody else's place changes. -/
theorem under_move {p : Phase} (hh : s'.handlers = s.handlers.set h { c with phase := p }) {i : Nat}
    (hi : Under s' i) : i = h ∧ p.holding = true ∨ Under s i := by
  obtain ⟨d, hd, hhold⟩ := hi
  rw [hh] at hd
  rcases getElem?_set_cases hd with ⟨rfl, rfl⟩ | ⟨-, hd⟩
  · exact Or.inl ⟨rfl, hhold⟩
  · exact Or.inr ⟨d, hd, hhold⟩

/-- Nor does anybody come under a lock by a move of a handler that is not. -/
theorem under_quiet {p : Phase} (hh : s'.handlers = s.handlers.set h { c with phase := p })
    (hp : p.holding = false) {i : Nat} (hi : Under s' i) : Under s i := by
  refine (under_move hh hi).resolve_left ?_
  rintro ⟨-, hhold⟩
  rw [hp] at hhold
  cases hhold

/-- A call brings nobody but its own handler under a lock, and that one only by `AcquireLock`. -/
theorem under_callStep {a : Call} (hs : callStep ⟨true, messageCache⟩ a s = some s') {i : Nat}
    (hi : Under s' i) : leasing.takes a = some i ∨ Under s i := by
  cases a with
  | enter agent caller actionID =>
    cases hs
    obtain ⟨d, hd, hhold⟩ := hi
    refine Or.inr ⟨d, ?_, hhold⟩
    by_cases hg : i < s.handlers.length
    · rwa [List.getElem?_append_left hg] at hd
    · rw [List.getElem?_append_right (by omega)] at hd
      obtain rfl := List.mem_singleton.mp (List.mem_of_getElem? hd)
      cases hhold
  | shouldHandleAction h =>
    obtain ⟨c, hc, he⟩ := Option.bind_eq_some_iff.mp hs
    cases exec_effect rfl he with
    | handled => exact Or.inr (under_quiet rfl rfl hi)
    | passed => exact Or.inr (under_quiet rfl rfl hi)
  | acquireLock h ok =>
    obtain ⟨c, m, hc, -, -, ⟨y, -, rfl⟩ | rfl⟩ := acquireLock_cases hs
    · exact (under_move rfl hi).imp (fun hih => congrArg some hih.1.symm) id
    · exact Or.inr (under_quiet rfl rfl hi)
  | sign h answer =>
    obtain ⟨c, hc, he⟩ := Option.bind_eq_some_iff.mp hs
    have hlocked : c.phase = .locked → ∀ {p}, i = h ∧ p = true ∨ Under s i → Under s i := by
      rintro hp p (⟨rfl, -⟩ | hu)
      · exact ⟨c, hc, by rw [hp]; rfl⟩
      · exact hu
    cases exec_effect rfl he with
    | succeeded hp => exact Or.inr (hlocked hp (under_move rfl hi))
    | failed hp => exact Or.inr (hlocked hp (under_move rfl hi))
    | retried hp => exact Or.inr (hlocked hp (under_move rfl hi))
  | release h =>
    obtain ⟨c, ok, hc, -, rfl⟩ := release_cases rfl hs
    exact Or.inr (under_quiet rfl rfl hi)
  | expire key =>
    simp only [callStep, Action.step] at hs
    split at hs
    · cases hs
      exact Or.inr hi
    · cases hs

/-- A lock that no handler is under may expire. -/
theorem canExpire_of_free {key : String} {v : Nat} (howner : lockOwner key s = some v)
    (hfree : ¬ Under s v) : s.canExpire key = true := by
  unfold lockOwner at howner
  cases hr : s.sync.redis key with
  | none =>
    rw [hr] at howner
    cases howner
  | some e =>
    cases e with
    | handled =>
      rw [hr] at howner
      cases howner
    | lock w =>
      rw [hr] at howner
      obtain rfl : w = v := Option.some.inj howner
      unfold State.canExpire
      rw [hr]
      cases hw : s.handlers[w]? with
      | none => simp [hw]
      | some c =>
        have hhold : c.phase.holding = false := by
          rw [← Bool.not_eq_true]
          exact fun hhold => hfree ⟨c, hw, hhold⟩
        cases hp : c.phase <;> simp_all [Phase.holding]

theorem lawful (messageCache : Bool) :
    leasing.Lawful (calling messageCache) (Undisturbed messageCache) where
  init := by
    rintro s i rfl ⟨c, hc, -⟩
    simp [start] at hc
  step hs hi := under_callStep hs hi
  revoke {key s v} howner hfree := by
    refine ⟨.expire key, trivial, rfl, ?_⟩
    show (if s.canExpire key = true then _ else _) = _
    rw [if_pos (canExpire_of_free howner hfree)]
    rfl

/-! ## Exclusion -/

/-- Handlers that are under the lock of one action are the same. -/
def Exclusive (s : State) : Prop :=
  ∀ (g h : Nat) (c d : Handler), s.handlers[g]? = some c → s.handlers[h]? = some d →
    c.phase.holding = true → d.phase.holding = true → c.actionID = d.actionID → g = h

theorem OwnLock.exclusive (hs : OwnLock s) : Exclusive s := by
  intro g h c d hc hd hcp hdp hid
  have hr := hs.held g c hc hcp
  rw [hid, hs.held h d hd hdp] at hr
  exact (Entry.lock.inj (Option.some.inj hr)).symm

/-- Undisturbed runs under a clock, with leases of the length `L`, in which no handler keeps its
lock for longer than `H`. -/
def Timed (messageCache : Bool) (L H : Nat) (t : Leased State Nat) : Prop :=
  (Leased.leased (calling messageCache) leasing L).ReachableBy
    (Leased.Within leasing (Undisturbed messageCache) H) t

/-- Two agents pass the check of one action, and the first one takes the lock. -/
def overlapping : List Call :=
  [.enter 0 .message "a", .enter 1 .message "a", .shouldHandleAction 0, .shouldHandleAction 1,
    .acquireLock 0 true]

/-- The first handler is at its signer call, and the second one takes the lock when the first one
has lost it. -/
structure Contested (s : State) : Prop where
  handlers : s.handlers = [⟨0, .message, "a", .locked⟩, ⟨1, .message, "a", .passed⟩]
  owner : lockOwner "a" s = some 0
  free : ((s.sync.mutex 1).bind fun m => (s.sync.expire "a").lock m 1).isSome

/-- The call is not one of the signer. -/
def Call.isQuiet : Call → Bool
  | .sign .. => false
  | _ => true

theorem exists_contested (messageCache : Bool) :
    ∃ s, (calling messageCache).ReachableBy
      (fun s a => Undisturbed messageCache s a ∧ a.isQuiet = true) s ∧ Contested s ∧
      s.log = [] := by
  obtain ⟨s, hr, hs⟩ := System.exists_reachableBy (M := calling messageCache)
    (G := fun s a => Undisturbed messageCache s a ∧ a.isQuiet = true)
    (g := fun s a => decide (Undisturbed messageCache s a ∧ a.isQuiet = true))
    (fun _ _ => of_decide_eq_true) (s := start) rfl overlapping
    (fun s => decide (s.handlers = [⟨0, .message, "a", .locked⟩, ⟨1, .message, "a", .passed⟩] ∧
      lockOwner "a" s = some 0 ∧
      ((s.sync.mutex 1).bind fun m => (s.sync.expire "a").lock m 1).isSome ∧ s.log = []))
    (by cases messageCache <;> decide +kernel)
  obtain ⟨hhandlers, howner, hfree, hlog⟩ := of_decide_eq_true hs
  exact ⟨s, hr, ⟨hhandlers, howner, hfree⟩, hlog⟩

/-- A call of the signer by the first handler that fails, and is to be repeated. -/
theorem Contested.retry (hs : Contested s) :
    callStep ⟨true, messageCache⟩ (.sign 0 .retry) s =
      some (s.emit (.signed 0 .message "a" false)) := by
  have hset : (s.handlers.set 0 ⟨0, .message, "a", .locked⟩) = s.handlers := by
    rw [hs.handlers]
    rfl
  simp only [callStep, step, hs.handlers, List.getElem?_cons_zero, Option.bind_some, exec,
    if_true, State.goto]
  rw [← hs.handlers, hset]

theorem Contested.log (hs : Contested s) (log : List Event) : Contested { s with log := log } :=
  ⟨hs.handlers, hs.owner, hs.free⟩

/-- The first lock ends, and the second agent takes it. -/
theorem Contested.takeover (messageCache : Bool) (hs : Contested s) :
    ∃ s', callStep ⟨true, messageCache⟩ (.acquireLock 1 true) (loseLock "a" s) = some s' ∧
      s'.handlers = [⟨0, .message, "a", .locked⟩, ⟨1, .message, "a", .locked⟩] ∧
      s'.log = .expired "a" :: s.log := by
  obtain ⟨y, hy⟩ := Option.isSome_iff_exists.mp hs.free
  obtain ⟨m, hm, hy⟩ := Option.bind_eq_some_iff.mp hy
  have hlost : (loseLock "a" s).handlers[1]? = some ⟨1, .message, "a", .passed⟩ := by
    show s.handlers[1]? = _
    rw [hs.handlers]
    rfl
  refine ⟨_, acquireLock_eq hlost rfl hm hy, ?_, rfl⟩
  show s.handlers.set 1 _ = _
  rw [hs.handlers]
  rfl

/-- **How long a lock protects.** In every run under load balancing whose steps are undisturbed and
in which no handler keeps its lock for longer than `H`, no two handlers of one action are between
`AcquireLock` and `Release` together, if and only if `H` is less than the length of a lease. -/
theorem exclusive_iff (messageCache : Bool) (L H : Nat) :
    (∀ t, Timed messageCache L H t → Exclusive t.state) ↔ H < L := by
  constructor
  · intro hall
    by_contra hshort
    obtain ⟨s, hs, hcontested, -⟩ := exists_contested messageCache
    obtain ⟨s', hstep, hhandlers, -⟩ := hcontested.takeover messageCache
    have hlost := Leased.revoked (K := leasing) (L := L) (H := H) (by omega)
      (hs.mono fun _ _ ha => ha.1) hcontested.owner
    have hboth := Leased.reachableBy_act hlost (a := .acquireLock 1 true) trivial hstep
    have h0 : s'.handlers[0]? = some ⟨0, .message, "a", .locked⟩ := by rw [hhandlers]; rfl
    have h1 : s'.handlers[1]? = some ⟨1, .message, "a", .locked⟩ := by rw [hhandlers]; rfl
    exact absurd (hall _ hboth 0 1 _ _ h0 h1 rfl rfl rfl) (by decide)
  · intro hlong t ht
    exact (locking_of_reachableBy
      (Leased.refines (lawful messageCache) hlong ht)).ownLock.exclusive

/-! ## The auto-approver under its lock -/

section

open AutoApprover

variable {p : Approver} {w : World} {tm : AutoApprover.Timing} {k L : Nat}

/-- A signer that always fails is called until the time is up. -/
theorem maximum_le_ends (hcalls : CallsMade p w tm k) (hfail : ∀ i, w.approveErr i ≠ none) :
    seconds p.retryIntervalMax ≤ ends p tm k := by
  by_contra hlt
  exact hcalls.last ⟨hfail k, Int.not_le.mp hlt⟩

/-- The failed calls of a handler. -/
def failures (h : Nat) (log : List Event) : Nat :=
  log.countP fun e =>
    match e with
    | .signed g _ _ ok => g == h && !ok
    | _ => false

/-- A call of the signer ends when it does in the loop of `approveAction`, which starts when the
handler takes its lock. -/
def Paced (p : Approver) (tm : AutoApprover.Timing) (t : Leased State Nat) :
    Leased.Label Call String → Prop
  | .act (.sign h _) => (t.clock : Int) = t.takenAt h + ends p tm (failures h t.state.log)
  | _ => True

/-- The runs of `Timed` that are paced so. -/
def PacedRun (messageCache : Bool) (L H : Nat) (p : Approver) (tm : AutoApprover.Timing)
    (t : Leased State Nat) : Prop :=
  (Leased.leased (calling messageCache) leasing L).ReachableBy (fun t x =>
    Leased.Within leasing (Undisturbed messageCache) H t x ∧ Paced p tm t x) t

/-- Two agents in the signer call of one action: the first one has made `j` calls, which have
failed, and is in the next one of its loop; the second one has just taken the lock, and is in its
first. -/
structure BothSigning (p : Approver) (tm : AutoApprover.Timing) (j : Nat) (t : Leased State Nat) :
    Prop where
  handlers : t.state.handlers = [⟨0, .message, "a", .locked⟩, ⟨1, .message, "a", .locked⟩]
  log : t.state.log = .expired "a" :: List.replicate j (.signed 0 .message "a" false)
  first : t.takenAt 0 = 0
  second : t.takenAt 1 = t.clock
  during : starts p tm j ≤ t.clock ∧ t.clock ≤ ends p tm j

/-- When the first `n` calls of the loop have failed. -/
def afterCalls (p : Approver) (tm : AutoApprover.Timing) : Nat → Int
  | 0 => 0
  | n + 1 => ends p tm n

theorem afterCalls_le_starts : ∀ n, afterCalls p tm n ≤ starts p tm n
  | 0 => le_rfl
  | n + 1 => ends_le_starts n

theorem afterCalls_nonneg : ∀ n, 0 ≤ afterCalls p tm n
  | 0 => le_rfl
  | n + 1 => (starts_nonneg n).trans (starts_le_ends n)

/-- The first handler makes its calls. -/
theorem pacedRun_calls {H : Nat} (hs : (calling messageCache).ReachableBy
      (fun s a => Undisturbed messageCache s a ∧ a.isQuiet = true) s) (hcontested : Contested s)
    (hlog : s.log = []) : ∀ n, afterCalls p tm n ≤ H → PacedRun messageCache L H p tm
      ⟨{ s with log := List.replicate n (.signed 0 .message "a" false) },
        (afterCalls p tm n).toNat, fun _ => 0⟩
  | 0, _ => by
    have hstart : PacedRun messageCache L H p tm ⟨s, 0, fun _ => 0⟩ := by
      refine Leased.timeless (fun s a ha => ⟨ha.1, ?_⟩) hs
      cases a with
      | sign h answer => cases ha.2
      | _ => trivial
    rwa [show s = { s with log := [] } from by rw [← hlog]] at hstart
  | n + 1, hle => by
    have hends : afterCalls p tm n ≤ ends p tm n :=
      (afterCalls_le_starts n).trans (starts_le_ends n)
    have hpos : 0 ≤ ends p tm n := (afterCalls_nonneg n).trans hends
    have hle' : ends p tm n ≤ H := hle
    have hprev := pacedRun_calls (H := H) hs hcontested hlog n (hends.trans hle')
    have hclock : (afterCalls p tm n).toNat ≤ (ends p tm n).toNat := Int.toNat_le_toNat hends
    have hwait := Leased.reachableBy_wait hprev hclock
      ⟨Leased.Within.wait_until hclock fun i _ => by simp only; omega, trivial⟩
    refine Leased.reachableBy_act hwait (a := .sign 0 .retry) ⟨trivial, ?_⟩
      (hcontested.log _).retry
    have hcount : failures 0 (List.replicate n (.signed 0 .message "a" false)) = n := by
      simp [failures, List.countP_replicate]
    show ((ends p tm n).toNat : Int) = (0 : Nat) + ends p tm (failures 0 _)
    rw [hcount]
    omega

/-- And the second agent takes the lock during the first call that the lease does not cover. -/
theorem exists_bothSigning (messageCache : Bool) (hk : (L : Int) ≤ ends p tm k) :
    ∃ j t, j ≤ k ∧ PacedRun messageCache L (ends p tm k).toNat p tm t ∧ BothSigning p tm j t := by
  have hex : ∃ j, (L : Int) ≤ ends p tm j := ⟨k, hk⟩
  set j := Nat.find hex with hj
  have hfind : (L : Int) ≤ ends p tm j := Nat.find_spec hex
  have hjk : j ≤ k := Nat.find_min' hex hk
  have hmono : ends p tm j ≤ ends p tm k := ends_mono hjk
  have hbefore : afterCalls p tm j ≤ L := by
    cases hn : j with
    | zero => exact Int.natCast_nonneg L
    | succ n => exact (Int.not_le.mp (Nat.find_min hex (hj ▸ hn ▸ Nat.lt_succ_self n))).le
  -- the lease is over, and the `j`-th call has begun
  obtain ⟨T, hT⟩ : ∃ T : Nat, (T : Int) = max (L : Int) (starts p tm j) :=
    ⟨_, Int.toNat_of_nonneg (le_max_of_le_left (Int.natCast_nonneg L))⟩
  have hstarts : starts p tm j ≤ ends p tm j := starts_le_ends j
  have hpos : 0 ≤ afterCalls p tm j := afterCalls_nonneg j
  obtain ⟨s, hs, hcontested, hlog⟩ := exists_contested messageCache
  have hcalls : PacedRun messageCache L (ends p tm k).toNat p tm
      ⟨{ s with log := List.replicate j (.signed 0 .message "a" false) },
        (afterCalls p tm j).toNat, fun _ => 0⟩ :=
    pacedRun_calls hs hcontested hlog j (by omega)
  have hclock : (afterCalls p tm j).toNat ≤ T := by omega
  have hwait := Leased.reachableBy_wait hcalls hclock
    ⟨Leased.Within.wait_until hclock fun i _ => by simp only; omega, trivial⟩
  have hlost := Leased.reachableBy_runOut hwait (r := "a") (i := 0) (hcontested.log _).owner
    (by simp only; omega) ⟨trivial, trivial⟩
  obtain ⟨s', hstep, hhandlers, hlog'⟩ := (hcontested.log _).takeover messageCache
  have hboth := Leased.reachableBy_act hlost (a := .acquireLock 1 true) ⟨trivial, trivial⟩ hstep
  refine ⟨j, _, hjk, hboth, hhandlers, hlog', rfl, rfl, ?_⟩
  show starts p tm j ≤ (T : Int) ∧ (T : Int) ≤ ends p tm j
  omega

/-- **Retries outlive the lease.** Whatever the settings are and however long the calls of the
signer take, if they all fail and a lease is no longer than `RetryIntervalMax`, then the loop of
`approveAction` ends later than the lease that it runs under, and during one of its calls another
agent may be in its own call for the same action. -/
theorem failing_not_exclusive (messageCache : Bool) (hr : 1 ≤ p.retryInterval)
    (hfits : NoOverflow p w tm) (hfail : ∀ i, w.approveErr i ≠ none)
    (hlease : L ≤ seconds p.retryIntervalMax) :
    ∃ k, (∀ began fuel, k < fuel → approveActionAt p w tm fuel began =
        some ((List.range (k + 1)).map (attempt p tm began))) ∧
      L ≤ ends p tm k ∧
      ∃ j t, j ≤ k ∧ PacedRun messageCache L (ends p tm k).toNat p tm t ∧
        BothSigning p tm j t := by
  obtain ⟨k, hk⟩ := hfits.exists_callsMade hr
  have hends : L ≤ ends p tm k := hlease.trans (maximum_le_ends hk hfail)
  exact ⟨k, fun began fuel hfuel => approveActionAt_eq hk began hfuel, hends,
    exists_bothSigning messageCache hends⟩

end

/-- The default settings, a lease of 8 seconds, and a signer that fails at once. -/
theorem failing_not_exclusive_sample :
    ∃ k, (8000000000 : Nat) ≤ AutoApprover.ends AutoApprover.sampleApprover ⟨0, 0, fun _ => 0⟩ k ∧
      ∃ j t, j ≤ k ∧ PacedRun false 8000000000
        (AutoApprover.ends AutoApprover.sampleApprover ⟨0, 0, fun _ => 0⟩ k).toNat
        AutoApprover.sampleApprover ⟨0, 0, fun _ => 0⟩ t ∧
        BothSigning AutoApprover.sampleApprover ⟨0, 0, fun _ => 0⟩ j t := by
  have hfits : AutoApprover.NoOverflow AutoApprover.sampleApprover AutoApprover.failingWorld
      ⟨0, 0, fun _ => 0⟩ := by
    refine ⟨by decide +kernel, fun i hretried => ?_⟩
    have hi : i < 11 := by
      by_contra hle
      have h11 := (hretried 11 (by omega)).2
      exact absurd h11 (by decide +kernel)
    have hall : ∀ i : Nat, i < 11 → FitsDuration ((i + 1) * 5) := by decide +kernel
    exact hall i hi
  obtain ⟨k, -, hk⟩ := failing_not_exclusive false (by decide) hfits
    (fun _ => Option.some_ne_none _) (L := 8000000000) (by decide +kernel)
  exact ⟨k, hk⟩

end SigningAgent.Action
