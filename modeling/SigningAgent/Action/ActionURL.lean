import SigningAgent.Action.Signer
import SigningAgent.Lib.Url

/-!
# The URL of an action (`internal/rest/handler.go`, `internal/defs/urls.go`)

`ActionApprove` and `ActionReject` take the ID of an action from the path of the request, decoded,
and `URLAction` puts it into the URL of a request to the backend as it is; that URL is parsed again.

* Go strings are taken by their bytes. `urlAction_utf8` says that `urlAction` is the one of
  `Signer.lean`.
* A path variable has no slash. `trimSpace` goes by the UTF-8 encodings of white space.

Results:
* `handlerID_accepted`: what the handlers pass on is an `Accepted` ID.
* **`addresses_iff`**: the URL has the path of the action asked for, and neither query nor fragment,
  if and only if the ID has no `'#'`, `'?'` or `'%'`; two such IDs have different paths.
* `urlAction_collides`: without that, two accepted IDs address one action.
-/

namespace SigningAgent.Action

open Url

/-! ## The ID of a request -/

/-- The white space of Unicode. -/
def spaces : List Bytes :=
  [[9], [10], [11], [12], [13], [32], [0xc2, 0x85], [0xc2, 0xa0], [0xe1, 0x9a, 0x80],
    [0xe2, 0x80, 0x80], [0xe2, 0x80, 0x81], [0xe2, 0x80, 0x82], [0xe2, 0x80, 0x83],
    [0xe2, 0x80, 0x84], [0xe2, 0x80, 0x85], [0xe2, 0x80, 0x86], [0xe2, 0x80, 0x87],
    [0xe2, 0x80, 0x88], [0xe2, 0x80, 0x89], [0xe2, 0x80, 0x8a], [0xe2, 0x80, 0xa8],
    [0xe2, 0x80, 0xa9], [0xe2, 0x80, 0xaf], [0xe2, 0x81, 0x9f], [0xe3, 0x80, 0x80]]

/-- Drop `ps` from the front of `s`, over and over. -/
def dropFront (ps : List Bytes) : (fuel : Nat) → Bytes → Bytes
  | 0, s => s
  | fuel + 1, s =>
    match ps.find? fun p => p.isPrefixOf s with
    | none => s
    | some p => dropFront ps fuel (s.drop p.length)

/-- `strings.TrimSpace`. -/
def trimSpace (s : Bytes) : Bytes :=
  let s := dropFront spaces s.length s
  (dropFront (spaces.map List.reverse) s.length s.reverse).reverse

/-- The ID that `ActionApprove` and `ActionReject` pass on, of the path variable `action_id`. -/
def handlerID (v : Bytes) : Except String Bytes :=
  let actionID := trimSpace v
  if actionID = [] then .error "empty actionID" else .ok actionID

/-- `URLAction`. -/
def urlAction (baseURL actionID : Bytes) : Bytes := baseURL ++ utf8 "/actions/" ++ actionID

theorem urlAction_utf8 (baseURL actionID : String) :
    utf8 (Signer.urlAction baseURL actionID) = urlAction (utf8 baseURL) (utf8 actionID) := by
  simp [Signer.urlAction, urlAction, utf8, String.toByteArray_append]

/-- No empty string, no slash, and no white space around it. -/
structure Accepted (id : Bytes) : Prop where
  nonempty : id ≠ []
  segment : slash ∉ id
  front : ∀ p ∈ spaces, ¬ p <+: id
  back : ∀ p ∈ spaces, ¬ p <:+ id

/-- What is left has none of `ps` in front. -/
theorem dropFront_spec {ps : List Bytes} (hps : ∀ p ∈ ps, p ≠ []) {fuel : Nat} {s : Bytes}
    (hfuel : s.length ≤ fuel) : ∀ p ∈ ps, ¬ p <+: dropFront ps fuel s := by
  induction fuel generalizing s with
  | zero =>
    intro p hp hfirst
    rw [List.length_eq_zero_iff.mp (Nat.le_zero.mp hfuel), dropFront, List.prefix_nil] at hfirst
    exact hps p hp hfirst
  | succ fuel ih =>
    rw [dropFront]
    cases hfind : ps.find? fun p => p.isPrefixOf s with
    | none =>
      intro p hp hfirst
      have hnot := List.find?_eq_none.mp hfind p hp
      exact hnot (List.isPrefixOf_iff_prefix.mpr hfirst)
    | some q =>
      have hq : q ≠ [] := hps q (List.mem_of_find?_eq_some hfind)
      refine ih ?_
      have hpos : 0 < q.length := List.length_pos_iff.mpr hq
      rw [List.length_drop]
      omega

theorem dropFront_suffix (ps : List Bytes) (fuel : Nat) (s : Bytes) :
    dropFront ps fuel s <:+ s := by
  induction fuel generalizing s with
  | zero => exact List.suffix_rfl
  | succ fuel ih =>
    rw [dropFront]
    cases ps.find? fun p => p.isPrefixOf s with
    | none => exact List.suffix_rfl
    | some q => exact (ih _).trans (List.drop_suffix _ _)

theorem spaces_ne_nil : ∀ p ∈ spaces, p ≠ [] := by decide

/-- **What the handlers pass on.** -/
theorem handlerID_accepted {v id : Bytes} (hv : slash ∉ v) (h : handlerID v = .ok id) :
    Accepted id := by
  rw [handlerID] at h
  split_ifs at h with hne
  cases h
  set s := dropFront spaces v.length v with hs
  have hback : trimSpace v = (dropFront (spaces.map List.reverse) s.length s.reverse).reverse := rfl
  have hfirst : trimSpace v <+: s := by
    rw [hback, ← List.reverse_suffix, List.reverse_reverse]
    exact dropFront_suffix _ _ _
  refine ⟨hne, fun hmem => hv ?_, fun p hp hfront => ?_, fun p hp hend => ?_⟩
  · exact (dropFront_suffix _ _ _).subset (hfirst.subset hmem)
  · exact dropFront_spec spaces_ne_nil le_rfl p hp (hfront.trans hfirst)
  · rw [hback, ← List.reverse_prefix, List.reverse_reverse] at hend
    refine dropFront_spec ?_ (by rw [List.length_reverse]) _ (List.mem_map_of_mem hp) hend
    intro q hq
    obtain ⟨r, hr, rfl⟩ := List.mem_map.mp hq
    rw [ne_eq, List.reverse_eq_nil_iff]
    exact spaces_ne_nil r hr

/-! ## The action that is addressed -/

/-- What of an ID comes before the first `'#'` and the first `'?'`. -/
def addressed (id : Bytes) : Bytes := (cut question (cut hash id).1).1

/-- The URL of `id` has the path of `id`, and neither query nor fragment. An accepted ID has no
slash, so it is one segment of that path. -/
def Addresses (b : Base) (id : Bytes) : Prop :=
  ∃ u, parse (urlAction b.text id) = some u ∧ u.origin = b.origin ∧
    u.path = b.decodedPath ++ utf8 "/actions/" ++ id ∧ u.rawQuery = [] ∧ u.fragment = []

/-- No byte of the ID means anything in a URL. -/
def PlainID (id : Bytes) : Prop := hash ∉ id ∧ question ∉ id ∧ percent ∉ id

instance (id : Bytes) : Decidable (PlainID id) := inferInstanceAs (Decidable (_ ∧ _ ∧ _))

theorem plain_actions : PlainID (utf8 "/actions/") := by decide +kernel

/-- What the URL of an ID is parsed to. -/
theorem parse_urlAction (b : Base) (id : Bytes) : parse (urlAction b.text id) =
    (unescape (addressed id)).map fun seg => ⟨b.origin, b.decodedPath ++ utf8 "/actions/" ++ seg,
      (cut question (cut hash id).1).2, (cut hash id).2⟩ := by
  obtain ⟨hhash, hquestion, hpercent⟩ := plain_actions
  have hslash : utf8 "/actions/" = slash :: utf8 "actions/" := by decide +kernel
  have happ := b.parse_append (utf8 "actions/" ++ id)
  rw [← List.cons_append, ← hslash, ← List.append_assoc, cut_append hhash] at happ
  simp only at happ
  rw [cut_append hquestion] at happ
  simp only at happ
  rw [(Unescapes.of_notMem hpercent).append, Option.map_map] at happ
  rw [urlAction, happ]
  simp only [Function.comp_def, List.append_assoc, addressed]

theorem addressed_of_plain {id : Bytes} (h : PlainID id) : addressed id = id := by
  rw [addressed, cut_of_notMem h.1, cut_of_notMem h.2.1]

/-- A plain ID comes through. -/
theorem parse_of_plain (b : Base) {id : Bytes} (h : PlainID id) : parse (urlAction b.text id) =
    some ⟨b.origin, b.decodedPath ++ utf8 "/actions/" ++ id, [], []⟩ := by
  rw [parse_urlAction, addressed_of_plain h, (Unescapes.of_notMem h.2.2).unescape_eq,
    Option.map_some, cut_of_notMem h.1, cut_of_notMem h.2.1]

/-- An ID that comes through is plain: every byte that means something makes it shorter. -/
theorem plain_of_unescape {id : Bytes} (h : unescape (addressed id) = some id) : PlainID id := by
  have hun := unescapes_of_unescape h
  have hlen : id.length ≤ (addressed id).length := hun.length_le
  have hcut : (addressed id).length ≤ (cut hash id).1.length := length_cut_le _ _
  have hhash : hash ∉ id := notMem_of_length_cut (Nat.le_trans hlen hcut)
  rw [addressed, cut_of_notMem hhash] at hun hlen
  have hquestion : question ∉ id := notMem_of_length_cut hlen
  rw [cut_of_notMem hquestion] at hun
  exact ⟨hhash, hquestion, hun.notMem_of_length le_rfl⟩

/-- **The URL addresses the action asked for** if and only if the ID is plain; so different plain
IDs address different actions. -/
theorem addresses_iff (b : Base) : (∀ id, Addresses b id ↔ PlainID id) ∧
    ∀ id id' u u', PlainID id → PlainID id' → parse (urlAction b.text id) = some u →
      parse (urlAction b.text id') = some u' → u.path = u'.path → id = id' := by
  refine ⟨fun id => ⟨?_, fun h => ⟨_, parse_of_plain b h, rfl, rfl, rfl, rfl⟩⟩, ?_⟩
  · rintro ⟨u, hu, -, hpath, -, -⟩
    rw [parse_urlAction] at hu
    obtain ⟨seg, hseg, rfl⟩ := Option.map_eq_some_iff.mp hu
    rw [List.append_cancel_left hpath] at hseg
    exact plain_of_unescape hseg
  · intro id id' u u' h h' hu hu' hpath
    rw [parse_of_plain b h] at hu
    rw [parse_of_plain b h'] at hu'
    cases hu
    cases hu'
    exact List.append_cancel_left hpath

/-- `https://api/v1`. -/
def sampleBase : Base where
  scheme := utf8 "https"
  authority := utf8 "api"
  path := utf8 "/v1"
  decodedPath := utf8 "/v1"
  slash_scheme := by decide +kernel
  slash_authority := by decide +kernel
  hash_notMem := by decide +kernel
  question_notMem := by decide +kernel
  path_abs := .inr ⟨utf8 "v1", by decide +kernel⟩
  unescapes := .of_notMem (by decide +kernel)

/-- **Two IDs, one action**: the URLs of `a` and `a#x` differ in the fragment, which is not sent. -/
theorem urlAction_collides : ¬ ∀ b : Base, (∀ id, Accepted id → Addresses b id) ∧
    ∀ id id' u u', Accepted id → Accepted id' → parse (urlAction b.text id) = some u →
      parse (urlAction b.text id') = some u' → u.path = u'.path → id = id' := by
  intro hall
  have ha : Accepted (utf8 "a") :=
    ⟨by decide +kernel, by decide +kernel, by decide +kernel, by decide +kernel⟩
  have hax : Accepted (utf8 "a#x") :=
    ⟨by decide +kernel, by decide +kernel, by decide +kernel, by decide +kernel⟩
  have heq := (hall sampleBase).2 (utf8 "a") (utf8 "a#x") _ _ ha hax (parse_urlAction _ _)
    (parse_urlAction _ _) (by decide +kernel)
  exact absurd heq (by decide +kernel)

end SigningAgent.Action
