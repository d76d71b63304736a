import SigningAgent.Hub.FeedSafety

/-!
# Who is registered

`clients` as `RegisterClient`, `UnregisterClient` and `cleanUp` leave it: a client is registered at
most once (`Gone`), every client that has been called for is being registered, registered or closed
(`Accounted`), and `cleanUp` leaves nobody behind (`Stopped`), as long as no `RegisterClient` comes
after it. These are the facts that the callers of the hub rest on.
-/

namespace SigningAgent.Hub

variable {s s' : State} {a : Label} {c : Nat}

/-! ## A client that is gone -/

/-- The client has been registered, and is so no more. -/
def Gone (s : State) (c : Nat) : Prop :=
  (s.client c).called = true ∧ c ∉ s.clients ∧ ∀ messages, s.registering ≠ some (c, messages)

theorem called_update {d : Nat} {f : Client → Client} (hf : ∀ x, x.called = true →
    (f x).called = true) (h : (s.client c).called = true) : (s.update d f c).called = true :=
  update_rel (fun x y => x.called = true → y.called = true) (fun _ => id) hf c h

/-- Nobody is registered twice. -/
theorem Gone.effect (h : Gone s c) (he : Effect s a s') : Gone s' c := by
  obtain ⟨hcalled, hmem, hreg⟩ := h
  cases he with
  | panics | readMessage | reconnected | gaveUp | pushed | rxClosed | took | ended | locked
    | cleaning | unlocked | stopped | unknown => exact ⟨hcalled, hmem, hreg⟩
  | sent | receiverStopped => exact ⟨called_update (fun _ => id) hcalled, hmem, hreg⟩
  | dropped =>
    exact ⟨called_update (fun _ => id) hcalled, fun hm => hmem (Finset.mem_of_mem_erase hm), hreg⟩
  | @registering d messages _ hnew =>
    refine ⟨called_update (fun _ _ => rfl) hcalled, hmem, fun ms he => ?_⟩
    cases he
    rw [hcalled] at hnew
    cases hnew
  | replayed hd =>
    refine ⟨called_update (fun _ => id) hcalled, hmem, fun ms he => ?_⟩
    cases he
    exact hreg _ hd
  | joined hd =>
    refine ⟨called_update (fun _ => id) hcalled, fun hm => ?_, nofun⟩
    rcases Finset.mem_insert.mp hm with rfl | hm
    · exact hreg _ hd
    · exact hmem hm

/-- A closed `Feed` is that of a client that is gone. -/
theorem Feeds.gone (hc : Feeds s) (h : (s.client c).closed = true) : Gone s c := by
  have hx := hc.clients c
  refine ⟨?_, fun hmem => ?_, fun messages hr => ?_⟩
  · cases hcalled : (s.client c).called with
    | true => rfl
    | false => exact absurd (h.symm.trans (hx.fresh hcalled).1) (by simp)
  · exact absurd (h.symm.trans (hx.registered hmem).1) (by simp)
  · exact absurd (h.symm.trans (hx.registering ⟨messages, hr⟩).2.1) (by simp)

/-- After `UnregisterClient` a client that had been registered is gone. -/
theorem gone_of_unregister (hc : Feeds s) (hcalled : (s.client c).called = true)
    (hs : step (.unregister c) s = some s') : Gone s' c := by
  simp only [step] at hs
  split at hs
  · rename_i hfree
    have hreg := (lockFree_iff.mp hfree).1
    cases hs
    split
    · rename_i hmem
      have hopen : (s.client c).closed = false := ((hc.clients c).registered hmem).1
      simp only [State.dropClient, hopen, Bool.false_eq_true, if_false]
      exact ⟨called_update (fun _ => id) hcalled, Finset.notMem_erase c s.clients, by simp [hreg]⟩
    · rename_i hmem
      exact ⟨hcalled, hmem, by simp [hreg]⟩
  · cases hs

/-- Nothing is being sent to a client that is not registered. -/
theorem Feeds.pending_of_notMem (hc : Feeds s) (h : c ∉ s.clients) : s.loop.pending c = [] := by
  cases hl : s.loop with
  | sending m todo => exact if_neg fun hmem => h (hc.todo m todo hl hmem)
  | _ => rfl

/-- Every client that has been called for is being registered, registered, or closed. -/
def Accounted (s : State) : Prop :=
  ∀ c, (s.client c).called = true →
    c ∈ s.clients ∨ (∃ messages, s.registering = some (c, messages)) ∨ (s.client c).closed = true

/-- The hub loop has ended, and has left nobody behind. -/
def Stopped (s : State) : Prop := s.loop = .stopped → s.clients = ∅ ∧ s.registering = none

/-- A step keeps all other clients as they are. -/
theorem Accounted.of_client (h : Accounted s) {d : Nat} {f : Client → Client}
    (hclient : s'.client = s.update d f)
    (hothers : ∀ c, c ≠ d → (c ∈ s.clients → c ∈ s'.clients) ∧
      ∀ messages, s.registering = some (c, messages) →
        ∃ messages, s'.registering = some (c, messages))
    (hself : d ∈ s'.clients ∨ (∃ messages, s'.registering = some (d, messages)) ∨
      (f (s.client d)).closed = true) : Accounted s' := by
  intro c hcalled
  by_cases hcd : c = d
  · subst hcd
    rw [hclient, update_self]
    exact hself
  · rw [hclient, update_of_ne hcd] at hcalled ⊢
    obtain ⟨hmem, hreg⟩ := hothers c hcd
    rcases h c hcalled with h | ⟨messages, h⟩ | h
    · exact Or.inl (hmem h)
    · exact Or.inr (Or.inl (hreg messages h))
    · exact Or.inr (Or.inr h)

theorem Accounted.effect (h : Accounted s) (hc : Feeds s) (he : Effect s a s') :
    Accounted s' := by
  cases he with
  | panics | readMessage | reconnected | gaveUp | pushed | rxClosed | took | ended | locked
    | cleaning | unlocked | stopped | unknown => exact h
  | @sent m todo d hloop hmem =>
    exact h.of_client rfl (fun c _ => ⟨id, fun ms hr => ⟨ms, hr⟩⟩)
      (Or.inl (hc.todo m todo hloop hmem))
  | receiverStopped hclosed =>
    exact h.of_client rfl (fun c _ => ⟨id, fun ms hr => ⟨ms, hr⟩⟩) (Or.inr (Or.inr hclosed))
  | dropped hmem =>
    exact h.of_client rfl (fun c hne => ⟨fun hm => Finset.mem_erase.mpr ⟨hne, hm⟩,
      fun ms hr => ⟨ms, hr⟩⟩) (Or.inr (Or.inr rfl))
  | @registering d messages hfree =>
    refine h.of_client rfl (fun c _ => ⟨id, fun ms hr => ?_⟩) (Or.inr (Or.inl ⟨messages, rfl⟩))
    rw [(lockFree_iff.mp hfree).1] at hr
    cases hr
  | @replayed d m messages hd =>
    refine h.of_client rfl (fun c hne => ⟨id, fun ms hr => ?_⟩) (Or.inr (Or.inl ⟨messages, rfl⟩))
    rw [hd] at hr
    cases hr
    exact absurd rfl hne
  | @joined d hd =>
    refine h.of_client rfl (fun c hne => ⟨fun hm => Finset.mem_insert_of_mem hm, fun ms hr => ?_⟩)
      (Or.inl (Finset.mem_insert_self ..))
    rw [hd] at hr
    cases hr
    exact absurd rfl hne

/-- `cleanUp` leaves nobody behind, and while the hub loop has ended nobody comes but by
`RegisterClient`. -/
theorem Stopped.step (h : Stopped s) (hc : Feeds s) (hs : step a s = some s')
    (hreg : ∀ c messages, a = .register c messages → s.loop ≠ .stopped) : Stopped s' := by
  intro hstop
  have he := step_effect hs
  cases he with
  | panics | readMessage | reconnected | gaveUp | pushed | rxClosed | unknown
    | receiverStopped => exact h hstop
  | took | ended | locked | cleaning | sent | unlocked => cases hstop
  | stopped hloop =>
    simp only [Hub.step, hloop] at hs
    split at hs
    · rename_i hempty
      exact ⟨hempty, hc.not_registering (by rw [hloop]; rfl)⟩
    · cases hs
  | dropped hmem =>
    rw [(h hstop).1] at hmem
    exact absurd hmem (Finset.notMem_empty _)
  | registering => exact absurd hstop (hreg _ _ rfl)
  | replayed hd | joined hd =>
    rw [(h hstop).2] at hd
    cases hd

/-- A `Feed` is closed by the `UnregisterClient` of its client, or by `cleanUp`. -/
theorem closed_of_step (hs : step a s = some s') (h : (s'.client c).closed = true) :
    (s.client c).closed = true ∨ a = .unregister c ∨ s.loop = .cleaning := by
  have hupdate : ∀ (d : Nat) (f : Client → Client), s'.client = s.update d f →
      (∀ x, (f x).closed = x.closed) → (s.client c).closed = true := by
    intro d f hclient hf
    rw [hclient] at h
    exact (update_rel (fun x y => y.closed = x.closed) (fun _ => rfl) hf c).symm.trans h
  cases a with
  | closeFeed d =>
    simp only [step] at hs
    split at hs
    · exact Or.inr (Or.inr ‹_›)
    · cases hs
  | unregister d =>
    by_cases hcd : d = c
    · exact Or.inr (Or.inl (hcd ▸ rfl))
    · simp only [step] at hs
      split at hs
      · cases hs
        refine Or.inl ?_
        split at h
        · unfold State.dropClient at h
          split at h
          · exact h
          · exact (congrArg Client.closed (update_of_ne (Ne.symm hcd))).symm.trans h
        · exact h
      · cases hs
  | readMessage | readError | push | closeRx | take | lockHub | unlockHub =>
    simp only [step] at hs
    (repeat' split at hs) <;> cases hs <;> exact Or.inl h
  | send | register | replay | join | stopReceiver =>
    simp only [step] at hs
    (repeat' split at hs) <;> cases hs <;>
      first | exact Or.inl h | exact Or.inl (hupdate _ _ rfl fun _ => rfl)

end SigningAgent.Hub
