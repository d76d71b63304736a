import SigningAgent.AutoApprover.HandleMessage
import SigningAgent.Hub.Settling
import SigningAgent.Service.Startup

/-!
# From the feed to the signer

With auto-approval, an action goes from the connection through the hub to the auto-approver, whose
`Listen` starts a goroutine with `handleMessage` for every message it receives.

`listen` is what has become of these goroutines. The answers that the outside gives to the one of
the `i`-th message are `worlds i`; under load balancing the handlers of other agents are in them.

**`approves_all`**: after a prompt start (`Startup.Prompt`) the pipeline comes to rest under every
scheduler, and then there is a handler for each message read from the connection, in order. If none
of these messages is an accepted action without messages, every handler returns (`Safe`): those of
pending, unexpired actions that the synchronizer lets through have called the signer, for the ID and
the first message of their own action only, and the others have not.

The condition is needed. `handleAction` indexes the messages unasked, and its panic ends the process
with all its other handlers, which `listen` takes one by one.
-/

namespace SigningAgent.AutoApproval

open AutoApprover Startup Transition

/-- The handlers that `Listen` has started for these messages, after `fuel` rounds. -/
def listen (p : Approver) (worlds : Nat → World) (fuel : Nat) (received : List Bytes) :
    List (Option Handled) :=
  received.mapIdx fun i message => handleMessage p (worlds i) fuel message

/-- The handler of the `i`-th message returns `r`. -/
def HandlerReturns (p : Approver) (worlds : Nat → World) (received : List Bytes) (i : Nat)
    (r : Handled) : Prop :=
  ∃ n, ∀ fuel, n < fuel → (listen p worlds fuel received)[i]? = some (some r)

section

variable {p : Approver} {worlds : Nat → World} {received : List Bytes} {i : Nat} {m : Bytes}
  {r : Handled}

theorem handlerReturns_iff (hm : received[i]? = some m) :
    HandlerReturns p worlds received i r ↔ Returns p (worlds i) m r := by
  unfold HandlerReturns Returns listen
  simp [List.getElem?_mapIdx, hm]

/-- The handler of a message that is no accepted action without messages returns. -/
theorem handler_safe (hm : received[i]? = some m)
    (hne : ∀ action, Accepts p (worlds i) m action → action.messages ≠ []) :
    ∃ r, HandlerReturns p worlds received i r ∧ Safe p (worlds i) m r := by
  obtain ⟨r, hr, hsafe⟩ := handleMessage_returns p (worlds i) m
  exact ⟨r, (handlerReturns_iff hm).mpr hr, hsafe hne⟩

end

/-- **From the feed to the signer.** After a prompt start, with the auto-approver added and the
source alive, every scheduler brings every message read to a handler. If none of the messages is an
accepted action without messages, each handler returns, and calls the signer just if its action
passes the checks. -/
theorem approves_all {s : State} (hr : starting.ReachableBy Prompt s)
    (hadded : 0 ∈ s.hub.clients) (hrun : s.hub.source.running = true) (p : Approver)
    (worlds : Nat → World)
    (hmessages : ∀ i m action, s.hub.read[i]? = some m → Accepts p (worlds i) m action →
      action.messages ≠ []) :
    Hub.pipeline.Settles Hub.Internal (fun t => t.panicked = false ∧
      (t.client 0).received = s.hub.read ∧
      ∀ i m, s.hub.read[i]? = some m →
        ∃ r, HandlerReturns p worlds (t.client 0).received i r ∧ Safe p (worlds i) m r) s.hub := by
  have hinv := hubInv_of_reachableBy hr
  refine (Hub.settles_running hinv.reachable hrun).mono ?_
  rintro t ⟨hpanic, -, -, -, hclients, hjoined⟩
  have hall : (t.client 0).received = s.hub.read := by
    rw [(hclients 0 (Or.inl hadded)).2, hjoined 0 hadded, hinv.joined hadded, List.drop_zero]
  refine ⟨hpanic, hall, fun i m hm => ?_⟩
  exact handler_safe (by rw [hall]; exact hm) fun action hacc => hmessages i m action hm hacc

/-- A pending action, and its JSON text. -/
def sampleAction : ActionInfo := ⟨"a", statusPending, [[1]], 100⟩

def sampleText : Bytes :=
  utf8 "\x7b\"id\":\"a\",\"status\":1,\"messages\":[\"AQ==\"],\"expireTime\":100\x7d"

/-- At second 7 the action comes. -/
def pendingWorld : World :=
  { sampleWorld with decode b := if b = sampleText then .ok sampleAction else .error "syntax" }

/-- `approves_all` for an action that has just been read. -/
theorem approves_all_sample : ∃ s, starting.ReachableBy Prompt s ∧ (s.hub.client 0).received = [] ∧
    Hub.pipeline.Settles Hub.Internal (fun t =>
      ∃ r, HandlerReturns ⟨none, false, 5, 300⟩ (fun _ => pendingWorld) (t.client 0).received 0 r ∧
        ∃ e ∈ r.events, e.isApprove = true) s.hub := by
  obtain ⟨s, hr, hs⟩ := System.exists_reachableBy (M := starting) (G := Prompt)
    (g := fun s a => decide (Prompt s a)) (fun _ _ => of_decide_eq_true)
    (s := ⟨Hub.start, .called⟩) rfl
    [.checkAgentInfo true, .listen, .connect true, .runReturns, .register [[7]], .hub .join,
      .hub (.readMessage sampleText)]
    (fun s => decide (0 ∈ s.hub.clients ∧ s.hub.source.running = true ∧
      s.hub.read = [sampleText] ∧ (s.hub.client 0).received = [])) (by decide +kernel)
  obtain ⟨hadded, hrun, hread, hnil⟩ := of_decide_eq_true hs
  have hdec : pendingWorld.decode sampleText = .ok sampleAction := by decide +kernel
  refine ⟨s, hr, hnil, (approves_all hr hadded hrun ⟨none, false, 5, 300⟩ (fun _ => pendingWorld)
    fun i m action hm hacc => ?_).mono ?_⟩
  · rw [hread] at hm
    obtain rfl : m = sampleText := by simpa using List.mem_of_getElem? hm
    obtain rfl : sampleAction = action := Except.ok.inj (hdec.symm.trans hacc.decoded)
    exact List.cons_ne_nil _ _
  · rintro t ⟨-, -, hall⟩
    obtain ⟨r, hreturns, hsafe⟩ := hall 0 sampleText (by rw [hread]; rfl)
    exact ⟨r, hreturns, hsafe.called.mpr
      ⟨sampleAction, ⟨hdec, by decide, rfl, nofun⟩, List.cons_ne_nil _ _⟩⟩

end SigningAgent.AutoApproval
