import SigningAgent.Lib.Expiring
import SigningAgent.Lib.System
import SigningAgent.Store.Remote

/-!
# The file store (`internal/util/filestore.go`)

`FileStore` keeps a map in memory and all of it, as JSON, in a file. `Set` and `Del` change the map
first and write the file then; `Del` writes nothing if the key is not there.

* The bytes of the file are taken as those of a secret in `Remote.lean`. An absent file is `none`.
* The answers of `os.ReadFile` and `os.WriteFile` are parameters of a call: an error, or none. A
  write that fails leaves the file as it is.
* The locks are not modelled: calls come one after another.

`Lands` is the condition on a call: its write succeeds, or it does not change the map.

**`agrees_iff_lands`**: in every run whose calls all land, after each call `Get` serves what a new
`FileStore` would load from the file, and the next call keeps it so, and changes nothing if it
returns an error, if and only if it lands. After a write that fails the map is ahead of the file
(`failed_set_served`).
-/

namespace SigningAgent.Store.File

open Transition

/-- `FileStore.data`, and the file. -/
structure State where
  data : KVMap
  file : Option Data

inductive FileError where
  | read (err : String)
  | write (err : String)
  | unmarshal
  /-- `defs.ErrKVNotFound` -/
  | kvNotFound
  deriving DecidableEq, Repr

/-! ## The code -/

/-- `save`. -/
def save (writeErr : Option String) (s : State) : Option FileError × State :=
  match writeErr with
  | some err => (some (.write err), s)
  | none => (none, { s with file := some (marshal s.data) })

/-- `Init`. `json.Unmarshal` adds the keys of the file to the map. -/
def initStore (readErr writeErr : Option String) (s : State) : Option FileError × State :=
  match readErr with
  | some err => (some (.read err), s)
  | none =>
    match s.file with
    | none => save writeErr s
    | some b =>
      match unmarshal b with
      | .error _ => (some .unmarshal, s)
      | .ok m => (none, { s with data := m ∪ s.data })

/-- `Get`. -/
def get (key : String) (s : State) : Except FileError Bytes :=
  match s.data.lookup key with
  | some data => .ok data
  | none => .error .kvNotFound

/-- `Set`. -/
def set (key : String) (data : Bytes) (writeErr : Option String) (s : State) :
    Option FileError × State :=
  save writeErr { s with data := s.data.insert key data }

/-- `Del`. -/
def del (key : String) (writeErr : Option String) (s : State) : Option FileError × State :=
  if key ∈ s.data then save writeErr { s with data := s.data.erase key } else (none, s)

/-- A call of `Set` or of `Del`, and how its write ends. -/
structure Call where
  op : Op
  writeErr : Option String
  deriving DecidableEq, Repr

def Call.run (a : Call) (s : State) : Option FileError × State :=
  match a.op with
  | .set key data => set key data a.writeErr s
  | .del key => del key a.writeErr s

/-- `NewFileStore`, over a file. -/
def newFileStore (file : Option Data) : State := ⟨∅, file⟩

/-- All sequences of calls after a successful `Init`, on no file or on one that a `FileStore` has
written. -/
def store : System State Call where
  init s := ∃ file readErr writeErr, (file = none ∨ ∃ m, file = some (marshal m)) ∧
    initStore readErr writeErr (newFileStore file) = (none, s)
  step a s := some (a.run s).2

/-! ## Memory and file -/

/-- `Get` serves what a new `FileStore` would load from the file. -/
def Agrees (s : State) : Prop :=
  ∃ t, initStore none none (newFileStore s.file) = (none, t) ∧ ∀ key, get key s = get key t

/-- The call leaves memory and file in agreement, and both as they are if it returns an error. -/
def Consistent (s : State) (a : Call) : Prop :=
  Agrees (a.run s).2 ∧ ((a.run s).1 ≠ none → (a.run s).2 = s)

/-- The write succeeds, or the call does not change the map. -/
def Lands (s : State) (a : Call) : Prop := a.writeErr = none ∨ a.op.apply s.data = s.data

/-- The file has the JSON of the map. -/
def Saved (s : State) : Prop := s.file = some (marshal s.data)

variable {s s' : State} {a : Call}

theorem get_inj {t : State} (h : ∀ key, get key s = get key t) : s.data = t.data := by
  refine Finmap.ext_lookup fun key => ?_
  have hkey := h key
  unfold get at hkey
  cases hs : s.data.lookup key <;> cases ht : t.data.lookup key <;> simp_all

/-- A file that a `FileStore` has written is loaded as it was. -/
theorem initStore_json (m : KVMap) : initStore none none (newFileStore (some (marshal m))) =
    (none, ⟨m, some (marshal m)⟩) := by
  show (none, (⟨m ∪ ∅, some (marshal m)⟩ : State)) = _
  rw [Finmap.union_empty]

/-- With such a file, to agree is to have what it has. -/
theorem agrees_iff {m : KVMap} (h : s.file = some (marshal m)) : Agrees s ↔ s.data = m := by
  unfold Agrees
  rw [h, initStore_json]
  constructor
  · rintro ⟨t, ht, hget⟩
    cases ht
    exact get_inj hget
  · rintro rfl
    exact ⟨_, rfl, fun _ => rfl⟩

/-- After a successful `Init` the file has the map. -/
theorem saved_of_init (h : store.init s) : Saved s := by
  obtain ⟨file, readErr, writeErr, hfile, hinit⟩ := h
  cases readErr with
  | some err => cases hinit
  | none =>
    rcases hfile with rfl | ⟨m, rfl⟩
    · cases writeErr with
      | some err => cases hinit
      | none =>
        cases hinit
        rfl
    · have hload := (initStore_json m).symm.trans hinit
      cases hload
      rfl

/-- What a call does: it changes the map and writes it, unless there is nothing to delete. -/
theorem run_eq (a : Call) (s : State) :
    a.run s = save a.writeErr { s with data := a.op.apply s.data } ∨
      a.op.apply s.data = s.data ∧ a.run s = (none, s) := by
  obtain ⟨op, writeErr⟩ := a
  cases op with
  | set key data => exact .inl rfl
  | del key =>
    by_cases hmem : key ∈ s.data
    · exact .inl (if_pos hmem)
    · exact .inr ⟨Expiring.erase_of_notMem hmem, if_neg hmem⟩

/-- **One call.** If it lands, the file has the map again, and an error has changed nothing. -/
theorem Saved.run (h : Saved s) (hlands : Lands s a) :
    Saved (a.run s).2 ∧ ((a.run s).1 ≠ none → (a.run s).2 = s) := by
  rcases run_eq a s with hrun | ⟨-, hrun⟩
  · rw [hrun]
    cases hw : a.writeErr with
    | none => exact ⟨rfl, fun herr => absurd rfl herr⟩
    | some err =>
      have hsame : a.op.apply s.data = s.data := hlands.resolve_left (by simp [hw])
      rw [hsame]
      exact ⟨h, fun _ => rfl⟩
  · rw [hrun]
    exact ⟨h, fun _ => rfl⟩

/-- A call that does not land leaves the map ahead of the file. -/
theorem Saved.lands_of_consistent (h : Saved s) (hc : Consistent s a) : Lands s a := by
  cases hw : a.writeErr with
  | none => exact .inl hw
  | some err =>
    right
    rcases run_eq a s with hrun | ⟨hsame, -⟩
    · have hagrees := hc.1
      rw [hrun, hw] at hagrees
      exact (agrees_iff (s := { s with data := a.op.apply s.data }) h).mp hagrees
    · exact hsame

theorem saved_reachable (h : store.ReachableBy Lands s) : Saved s :=
  h.invariant (fun _ => saved_of_init) fun s a s' hs hlands hstep => by
    cases hstep
    exact (hs.run hlands).1

/-- **Memory and file agree** in every run whose calls all land, and the next call keeps that and
changes nothing on an error if and only if it lands. -/
theorem agrees_iff_lands (h : store.ReachableBy Lands s) :
    Agrees s ∧ ∀ a, Consistent s a ↔ Lands s a := by
  have hs := saved_reachable h
  refine ⟨(agrees_iff hs).mpr rfl, fun a => ⟨hs.lands_of_consistent, fun hlands => ?_⟩⟩
  obtain ⟨hsaved, herr⟩ := hs.run hlands
  exact ⟨(agrees_iff hsaved).mpr rfl, herr⟩

theorem init_absent : store.init ⟨∅, some (marshal ∅)⟩ :=
  ⟨none, none, none, .inl rfl, rfl⟩

/-- A key is set; then, while no write succeeds, a key that is not there is deleted. -/
theorem agrees_iff_lands_sample :
    ∃ s, store.ReachableBy Lands s ∧ get "k" s = .ok [1] ∧ Agrees s := by
  have h0 : store.ReachableBy Lands ⟨∅, some (marshal ∅)⟩ := .init init_absent
  have hset := h0.step (a := ⟨.set "k" [1], none⟩) (.inl rfl) rfl
  have hdel := hset.step (a := ⟨.del "x", some "disk full"⟩) (.inr (by decide +kernel)) rfl
  exact ⟨_, hdel, by decide +kernel, (agrees_iff_lands hdel).1⟩

/-- **A failed `Set` is served**, until the next start. -/
theorem failed_set_served : ¬ ∀ s, store.Reachable s → Agrees s := by
  intro hall
  have h0 : store.Reachable ⟨∅, some (marshal ∅)⟩ := .init init_absent
  have hset : store.Reachable _ :=
    h0.step (a := ⟨.set "k" [1], some "disk full"⟩) trivial rfl
  have hdata := (agrees_iff (m := ∅) rfl).mp (hall _ hset)
  exact absurd hdata (by decide +kernel)

end SigningAgent.Store.File
