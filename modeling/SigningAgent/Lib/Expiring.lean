import Mathlib.Data.Finmap

/-!
# Finite maps whose keys expire

`Map K V` takes keys to values with a deadline. `get t` reads at the instant `t`: a key is there
until its deadline. `set` overwrites the value and the deadline, `del` deletes.

Results:
* `get_set_self`, `get_set_of_ne`, `get_del_self`, `get_del_of_ne`: what each write does to a read.
* `live`: the keys that are there at an instant, and `mem_live`.
* `erase_of_notMem`: of any finite map, with or without deadlines.
* `filterMap_perm`: two enumerations of the keys that `f` maps to something collect the same values
  up to order, whatever else they enumerate. This is what makes a map read in any order, or by a
  scan, a well defined collection.
-/

namespace Expiring

/-- Two enumerations collect the same values, up to order. -/
theorem filterMap_perm {K W : Type*} {f : K → Option W} {l l' : List K} (hl : l.Nodup)
    (hl' : l'.Nodup) (h : ∀ k, (f k).isSome = true → (k ∈ l ↔ k ∈ l')) :
    (l.filterMap f).Perm (l'.filterMap f) := by
  have hfilter : ∀ l : List K, l.filterMap f = (l.filter fun k => (f k).isSome).filterMap f := by
    intro l
    rw [List.filterMap_filter]
    refine List.filterMap_congr fun k _ => ?_
    cases f k <;> rfl
  rw [hfilter l, hfilter l']
  refine List.Perm.filterMap f ?_
  refine (List.perm_ext_iff_of_nodup (hl.filter _) (hl'.filter _)).mpr fun k => ?_
  rw [List.mem_filter, List.mem_filter]
  exact ⟨fun ⟨hk, hs⟩ => ⟨(h k hs).mp hk, hs⟩, fun ⟨hk, hs⟩ => ⟨(h k hs).mpr hk, hs⟩⟩

/-- To erase what is not there changes nothing. -/
theorem erase_of_notMem {K W : Type*} [DecidableEq K] {m : Finmap fun _ : K => W} {key : K}
    (h : key ∉ m) : m.erase key = m := by
  refine Finmap.ext_lookup fun k => ?_
  by_cases hk : k = key
  · subst hk
    rw [Finmap.lookup_erase, Finmap.lookup_eq_none.mpr h]
  · rw [Finmap.lookup_erase_ne hk]

/-- A finite map of values with deadlines. -/
abbrev Map (K V : Type*) := Finmap fun _ : K => V × Int

variable {K V : Type*} [DecidableEq K] {s : Map K V} {k j : K} {v : V} {t deadline : Int}

/-- The value of `k` at the instant `t`. -/
def get (t : Int) (k : K) (s : Map K V) : Option V :=
  (s.lookup k).bind fun x => if t < x.2 then some x.1 else none

def set (k : K) (v : V) (deadline : Int) (s : Map K V) : Map K V :=
  s.insert k (v, deadline)

def del (k : K) (s : Map K V) : Map K V := s.erase k

/-- The keys that are there at the instant `t`. -/
def live (t : Int) (s : Map K V) : Finset K := s.keys.filter fun k => (get t k s).isSome

theorem get_eq_some : get t k s = some v ↔ ∃ d, s.lookup k = some (v, d) ∧ t < d := by
  unfold get
  rw [Option.bind_eq_some_iff]
  constructor
  · rintro ⟨⟨w, d⟩, hx, hv⟩
    split at hv
    · rename_i hd
      cases hv
      exact ⟨d, hx, hd⟩
    · cases hv
  · rintro ⟨d, hx, hd⟩
    exact ⟨(v, d), hx, if_pos hd⟩

theorem get_set_self : get t k (set k v deadline s) = if t < deadline then some v else none := by
  simp [get, set]

theorem get_set_of_ne (h : j ≠ k) : get t j (set k v deadline s) = get t j s := by
  simp [get, set, Finmap.lookup_insert_of_ne s h]

@[simp] theorem get_del_self : get t k (del k s) = none := by
  simp [get, del]

theorem get_del_of_ne (h : j ≠ k) : get t j (del k s) = get t j s := by
  simp [get, del, Finmap.lookup_erase_ne h]

theorem mem_of_get (h : get t k s = some v) : k ∈ s := by
  obtain ⟨d, hk, -⟩ := get_eq_some.mp h
  exact Finmap.mem_of_lookup_eq_some hk

theorem mem_live : k ∈ live t s ↔ (get t k s).isSome = true := by
  unfold live
  rw [Finset.mem_filter, Finmap.mem_keys, and_iff_right_iff_imp]
  intro h
  obtain ⟨v, hv⟩ := Option.isSome_iff_exists.mp h
  exact mem_of_get hv

end Expiring
