import SigningAgent.Action.Signer

/-!
# What the signer posts

* `Carries`: one text, what `BLSSign` has returned for the call's message and the signer's key, in
  hexadecimal. Its error is dropped, so after a failure this need not be a signature.
* **`posts_signed`**: every POST of a call carries it, whatever the backend answers.
* `posts_accepted`: a call that returns nil has had its POST accepted.
* `signFetched_cases`: when `ActionApprove` and `ActionReject` return nil, panic, or blame the
  request.
-/

namespace SigningAgent.Action.Signer

open Util

/-! ## Hexadecimal -/

theorem fromHexChar_digitChar {n : Nat} (hn : n < 16) : fromHexChar (Nat.digitChar n) = some n := by
  have hall : ∀ n, n < 16 → fromHexChar (Nat.digitChar n) = some n := by decide
  exact hall n hn

theorem hexDecode_hexEncode (b : Bytes) : hexDecode (hexEncode b) = some b := by
  unfold hexDecode hexEncode
  rw [String.toList_ofList]
  induction b with
  | nil => rfl
  | cons x b ih =>
    have hx := x.toNat_lt
    have hbyte : 16 * (x.toNat / 16) + x.toNat % 16 = x.toNat := Nat.div_add_mod _ _
    simp only [List.flatMap_cons, List.cons_append, List.nil_append, hexDecodeChars,
      fromHexChar_digitChar (show x.toNat / 16 < 16 by omega),
      fromHexChar_digitChar (show x.toNat % 16 < 16 by omega), ih, hbyte, Option.bind_eq_bind,
      Option.bind_some, UInt8.ofNat_toNat]
    rfl

/-! ## The POSTs of the signer -/

/-- The POST carries one text: the bytes that `BLSSign` has returned for the call's message, with an
error or without. -/
def Carries (w : World) (key : Bytes) (c : Call) (p : Post) : Prop :=
  ∃ actionID status m, Signs w c actionID status m ∧ p.url = urlAction w.baseURL actionID ∧
    p.request = ⟨status, [hexEncode (w.blsSign m key).1]⟩

theorem signAction_posts {w : World} {key m : Bytes} {actionID : String} {status : Int}
    {post : Exchange} {c : Call} (hs : Signs w c actionID status m) :
    ∀ p ∈ (signAction w key actionID m status post).posts, Carries w key c p := by
  intro p hp
  unfold signAction at hp
  split at hp
  · simp at hp
  · have hmem : p ∈ if w.newRequest (urlAction w.baseURL actionID) = none then
        [⟨urlAction w.baseURL actionID, ⟨status, [hexEncode (w.blsSign m key).1]⟩, post⟩]
      else [] := by
      simp only at hp
      split at hp <;> exact hp
    split at hmem
    · obtain rfl := List.mem_singleton.mp hmem
      exact ⟨actionID, status, m, hs, rfl, rfl⟩
    · simp at hmem

theorem signFetched_posts {w : World} {key : Bytes} {actionID : String} {status : Int}
    {get post : Exchange} {c : Call} (hs : ∀ m, Brings w get m → Signs w c actionID status m) :
    ∀ p ∈ (signFetched w status key actionID get post).posts, Carries w key c p := by
  intro p hp
  unfold signFetched at hp
  rcases getActionMessage_cases w actionID get with
    ⟨_, m, -, -, hm, hget⟩ | ⟨_, -, -, -, hget⟩ | ⟨-, _, hget⟩ <;> rw [hget] at hp
  · exact signAction_posts (hs m hm) p hp
  · simp at hp
  · simp at hp

/-- Whatever the backend answers, what a call posts comes from `BLSSign` with the signer's key. -/
theorem posts_signed (w : World) (key : Bytes) (c : Call) :
    ∀ p ∈ (exec w c key).1.posts, Carries w key c p := by
  intro p hp
  cases c with
  | setKey s => simp [exec] at hp
  | actionApprove actionID get post => exact signFetched_posts (fun m hm => .approve hm) p hp
  | actionReject actionID get post => exact signFetched_posts (fun m hm => .reject hm) p hp
  | approveActionMessage actionID m post => exact signAction_posts .message p hp

/-! ## Results -/

/-- What signing comes to. -/
theorem signAction_cases (w : World) (key : Bytes) (actionID : String) (m : Bytes) (status : Int)
    (post : Exchange) :
    (key ≠ [] ∧ w.newRequest (urlAction w.baseURL actionID) = none ∧ post.ok = true ∧
      (signAction w key actionID m status post).outcome = .ok ()) ∨
    (¬ (key ≠ [] ∧ w.newRequest (urlAction w.baseURL actionID) = none ∧ post.ok = true) ∧
      ∃ detail, (signAction w key actionID m status post).outcome =
        .error (.error (.internal detail))) := by
  unfold signAction
  by_cases hkey : key = []
  · subst hkey
    exact Or.inr ⟨by simp, _, rfl⟩
  · rw [if_neg (by simpa using hkey)]
    cases hreq : requestNil w.newRequest "POST" (urlAction w.baseURL actionID) post with
    | error e =>
      refine Or.inr ⟨?_, "failed to sign the action", by simp only [hreq]⟩
      rintro ⟨-, hok⟩
      rw [requestNil_ok_iff.mpr hok] at hreq
      cases hreq
    | ok u =>
      obtain ⟨hnew, hok⟩ := requestNil_ok_iff.mp hreq
      exact Or.inl ⟨hkey, hnew, hok, by simp only [hreq]⟩

/-- The backend brings a pending action with a message to sign, there is a key, and the backend
accepts the signature. -/
def Accepted (w : World) (key : Bytes) (actionID : String) (get post : Exchange) : Prop :=
  w.newRequest (urlAction w.baseURL actionID) = none ∧ (∃ m, Brings w get m) ∧ key ≠ [] ∧
    post.ok = true

/-- The backend brings a pending action without messages. -/
def WithoutMessages (w : World) (actionID : String) (get : Exchange) : Prop :=
  ∃ resp, Fetched w actionID get resp ∧ resp.status = statusPending ∧ resp.messages = []

/-- The backend brings an action that is not pending. -/
def NotPending (w : World) (actionID : String) (get : Exchange) : Prop :=
  ∃ resp, Fetched w actionID get resp ∧ resp.status ≠ statusPending

section

variable {w : World} {key : Bytes} {actionID : String} {status : Int} {get post : Exchange}

/-- The one error of `getActionMessage` that blames the request. -/
theorem getActionMessage_badRequest_iff :
    (∃ detail, getActionMessage w actionID get = .error (.error (.badRequest detail))) ↔
      NotPending w actionID get := by
  unfold getActionMessage
  cases hreq : requestInto w.newRequest w.decodeResponse "GET" (urlAction w.baseURL actionID)
    get with
  | error e =>
    refine ⟨by simp, ?_⟩
    rintro ⟨resp, hf, -⟩
    rw [requestInto_ok_iff.mpr hf] at hreq
    cases hreq
  | ok resp =>
    have hf : Fetched w actionID get resp := requestInto_ok_iff.mp hreq
    by_cases hstatus : resp.status = statusPending
    · refine ⟨?_, ?_⟩
      · simp only [hstatus, ne_eq, not_true_eq_false, if_false]
        rintro ⟨detail, h⟩
        cases hm : resp.messages with
        | nil =>
          rw [hm] at h
          cases h
        | cons first rest =>
          have hfirst : (index (first :: rest) 0 : Outcome SignerError String) = .ok first := rfl
          rw [hm, hfirst] at h
          cases hd : hexDecode first <;> simp [hd, bind, Except.bind] at h
      · rintro ⟨resp', hf', hne⟩
        obtain rfl := hf.2.unique hf'.2
        exact absurd hstatus hne
    · exact ⟨fun _ => ⟨resp, hf, hstatus⟩, fun _ =>
        ⟨"action can't be signed, status not pending", by simp [hstatus]⟩⟩

theorem signFetched_eq {m : Bytes} (h : getActionMessage w actionID get = .ok m) :
    signFetched w status key actionID get post = signAction w key actionID m status post := by
  unfold signFetched
  rw [h]

theorem signFetched_error {e : Fault SignerError}
    (h : getActionMessage w actionID get = .error e) :
    signFetched w status key actionID get post = ⟨.error e, []⟩ := by
  unfold signFetched
  rw [h]

theorem Brings.not_notPending {m : Bytes} (hm : Brings w get m) : ¬ NotPending w actionID get := by
  rintro ⟨resp, hf, hne⟩
  obtain ⟨resp', _, ha, hp, -⟩ := hm
  obtain rfl := hf.2.unique ha
  exact hne hp

theorem Brings.not_withoutMessages {m : Bytes} (hm : Brings w get m) :
    ¬ WithoutMessages w actionID get := by
  rintro ⟨resp, hf, -, hnil⟩
  obtain ⟨resp', first, ha, -, hfirst, -⟩ := hm
  obtain rfl := hf.2.unique ha
  rw [hnil] at hfirst
  cases hfirst

/-- **How `ActionApprove` and `ActionReject` end**: nil, a panic, the error that blames the request,
or another one. -/
theorem signFetched_cases (w : World) (status : Int) (key : Bytes) (actionID : String)
    (get post : Exchange) :
    (Accepted w key actionID get post ∧
      (signFetched w status key actionID get post).outcome = .ok ()) ∨
    (WithoutMessages w actionID get ∧ (signFetched w status key actionID get post).outcome =
      .error .panic) ∨
    (NotPending w actionID get ∧ ∃ detail, (signFetched w status key actionID get post).outcome =
      .error (.error (.badRequest detail))) ∨
    (¬ Accepted w key actionID get post ∧ ¬ WithoutMessages w actionID get ∧
      ¬ NotPending w actionID get ∧
      ∃ e, (signFetched w status key actionID get post).outcome = .error (.error e) ∧
        ∀ detail, e ≠ .badRequest detail) := by
  have hpending := @getActionMessage_badRequest_iff w actionID get
  rcases getActionMessage_cases w actionID get with
    ⟨resp, m, hf, hp, hm, hget⟩ | ⟨resp, hf, hp, hnil, hget⟩ | ⟨hno, e, hget⟩
  · rw [signFetched_eq hget]
    rcases signAction_cases w key actionID m status post with
      ⟨hkey, hnew, hok, hout⟩ | ⟨hnot, detail, hout⟩
    · exact Or.inl ⟨⟨hnew, ⟨m, hm⟩, hkey, hok⟩, hout⟩
    · exact Or.inr (Or.inr (Or.inr ⟨fun h => hnot ⟨h.2.2.1, h.1, h.2.2.2⟩, hm.not_withoutMessages,
        hm.not_notPending, _, hout, by simp⟩))
  · rw [signFetched_error hget]
    exact Or.inr (Or.inl ⟨⟨resp, hf, hp, hnil⟩, rfl⟩)
  · rw [signFetched_error hget]
    by_cases hs : NotPending w actionID get
    · obtain ⟨detail, hd⟩ := hpending.mpr hs
      obtain rfl : e = .badRequest detail := by simpa using hget.symm.trans hd
      exact Or.inr (Or.inr (Or.inl ⟨hs, detail, rfl⟩))
    · refine Or.inr (Or.inr (Or.inr ⟨?_, ?_, hs, e, rfl, fun detail he => ?_⟩))
      · rintro ⟨hnew, ⟨m, hm⟩, -⟩
        obtain ⟨resp, first, ha, hp, hfirst, hd⟩ := hm
        exact (hno resp ⟨hnew, ha⟩ hp).2 m ⟨resp, first, ha, hp, hfirst, hd⟩
      · rintro ⟨resp, hf, hp, hnil⟩
        exact (hno resp hf hp).1 hnil
      · exact hs (hpending.mp ⟨detail, hget.trans (by rw [he])⟩)

end

/-- A call that returns nil has had its POST accepted. -/
theorem signAction_accepted {w : World} {key m : Bytes} {actionID : String} {status : Int}
    {post : Exchange} (h : (signAction w key actionID m status post).outcome = .ok ()) :
    ∃ p ∈ (signAction w key actionID m status post).posts, p.exchange.ok = true := by
  unfold signAction at h ⊢
  split at h
  · cases h
  · rename_i hkey
    rw [if_neg hkey]
    cases hreq : requestNil w.newRequest "POST" (urlAction w.baseURL actionID) post with
    | error e => simp [hreq] at h
    | ok u =>
      obtain ⟨hnew, hok⟩ := requestNil_ok_iff.mp hreq
      exact ⟨_, by simp only [hreq, hnew, if_true]; exact List.mem_singleton_self _, hok⟩

theorem posts_accepted {w : World} {key : Bytes} {c : Call} (hc : ∀ s, c ≠ .setKey s)
    (h : (exec w c key).1.outcome = .ok ()) :
    ∃ p ∈ (exec w c key).1.posts, p.exchange.ok = true := by
  have hfetched : ∀ {status : Int} {actionID : String} {get post : Exchange},
      (signFetched w status key actionID get post).outcome = .ok () →
        ∃ p ∈ (signFetched w status key actionID get post).posts, p.exchange.ok = true := by
    intro status actionID get post h
    unfold signFetched at h ⊢
    cases hget : getActionMessage w actionID get with
    | error e => simp [hget] at h
    | ok m =>
      rw [hget] at h
      exact signAction_accepted h
  cases c with
  | setKey s => exact absurd rfl (hc s)
  | actionApprove actionID get post => exact hfetched h
  | actionReject actionID get post => exact hfetched h
  | approveActionMessage actionID m post => exact signAction_accepted h

end SigningAgent.Action.Signer
