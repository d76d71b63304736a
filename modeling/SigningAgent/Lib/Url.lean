import Mathlib.Data.List.Basic
import SigningAgent.Lib.Hex

/-!
# Parsing URLs

A URL is cut at the first `'#'`, then at the first `'?'`; of the rest, `scheme://authority` is the
origin, and what follows is the path, which is percent-decoded. An escape that is none makes the
parse fail. Everything is taken by its bytes.

* `Unescapes s t` is the graph of `unescape`. What has no `'%'` is left as it is, and anything else
  gets shorter (`Unescapes.notMem_of_length`).
* `Base` is an absolute URL without query and fragment. **`Base.parse_append`** says what comes of a
  path that is appended to it.
-/

namespace Url

def slash : UInt8 := 47

def percent : UInt8 := 37

def hash : UInt8 := 35

def question : UInt8 := 63

/-- What comes before the first `c`, and what comes after it. -/
def cut (c : UInt8) : List UInt8 → List UInt8 × List UInt8
  | [] => ([], [])
  | x :: s => if x = c then ([], s) else (x :: (cut c s).1, (cut c s).2)

/-- The byte of an escape. -/
def unhex (h l : UInt8) : Option UInt8 :=
  (Hex.value h).bind fun hi => (Hex.value l).map fun lo => UInt8.ofNat (16 * hi + lo)

/-- Percent-decoding. -/
def unescape : List UInt8 → Option (List UInt8)
  | [] => some []
  | c :: rest =>
    if c = percent then
      match rest with
      | h :: l :: rest => (unhex h l).bind fun b => (unescape rest).map fun tail => b :: tail
      | _ => none
    else (unescape rest).map fun tail => c :: tail

/-- Split before the slash that `n` others precede. -/
def splitSlash : Nat → List UInt8 → List UInt8 × List UInt8
  | _, [] => ([], [])
  | 0, c :: rest =>
    if c = slash then ([], c :: rest) else (c :: (splitSlash 0 rest).1, (splitSlash 0 rest).2)
  | n + 1, c :: rest =>
    let next := if c = slash then splitSlash n rest else splitSlash (n + 1) rest
    (c :: next.1, next.2)

/-- A parsed URL. -/
structure Parsed where
  origin : List UInt8
  path : List UInt8
  rawQuery : List UInt8
  fragment : List UInt8
  deriving DecidableEq, Repr

def parse (s : List UInt8) : Option Parsed :=
  let (rest, fragment) := cut hash s
  let (rest, rawQuery) := cut question rest
  let (origin, path) := splitSlash 2 rest
  (unescape path).map fun path => ⟨origin, path, rawQuery, fragment⟩

/-! ## Cutting -/

/-- The cut is behind what has no `c`. -/
theorem cut_append {c : UInt8} {a : List UInt8} (h : c ∉ a) (s : List UInt8) :
    cut c (a ++ s) = (a ++ (cut c s).1, (cut c s).2) := by
  induction a with
  | nil => rfl
  | cons x a ih =>
    rw [List.mem_cons, not_or] at h
    rw [List.cons_append, cut, if_neg (Ne.symm h.1), ih h.2]
    rfl

theorem cut_of_notMem {c : UInt8} {s : List UInt8} (h : c ∉ s) : cut c s = (s, []) := by
  have happ := cut_append h []
  rwa [cut, List.append_nil] at happ

theorem length_cut_le (c : UInt8) (s : List UInt8) : (cut c s).1.length ≤ s.length := by
  induction s with
  | nil => exact Nat.le_refl _
  | cons x s ih =>
    rw [cut]
    split_ifs with hx
    · exact Nat.zero_le _
    · exact Nat.succ_le_succ ih

/-- A string of which nothing is cut off. -/
theorem notMem_of_length_cut {c : UInt8} {s : List UInt8}
    (h : s.length ≤ (cut c s).1.length) : c ∉ s := by
  induction s with
  | nil => exact List.not_mem_nil
  | cons x s ih =>
    rw [cut] at h
    split_ifs at h with hx
    · exact absurd h (by simp)
    · rw [List.mem_cons, not_or]
      exact ⟨Ne.symm hx, ih (Nat.le_of_succ_le_succ h)⟩

/-! ## Percent-decoding -/

theorem unescape_cons_of_ne {c : UInt8} (h : c ≠ percent) (s : List UInt8) :
    unescape (c :: s) = (unescape s).map fun t => c :: t := by
  conv_lhs => unfold unescape
  exact if_neg h

theorem unescape_percent (h l : UInt8) (s : List UInt8) : unescape (percent :: h :: l :: s) =
    (unhex h l).bind fun b => (unescape s).map fun t => b :: t := rfl

/-- `s` is percent-decoded to `t`. -/
inductive Unescapes : List UInt8 → List UInt8 → Prop
  | nil : Unescapes [] []
  | plain {c : UInt8} {s t : List UInt8} : c ≠ percent → Unescapes s t → Unescapes (c :: s) (c :: t)
  | escape {h l b : UInt8} {s t : List UInt8} : unhex h l = some b → Unescapes s t →
    Unescapes (percent :: h :: l :: s) (b :: t)

theorem unescapes_of_unescape : ∀ {s t : List UInt8}, unescape s = some t → Unescapes s t
  | [], t, hs => by
    cases hs
    exact .nil
  | c :: s, t, hs => by
    by_cases hc : c = percent
    · subst hc
      match s, hs with
      | h :: l :: s, hs =>
        rw [unescape_percent] at hs
        obtain ⟨b, hb, hs⟩ := Option.bind_eq_some_iff.mp hs
        obtain ⟨t, ht, rfl⟩ := Option.map_eq_some_iff.mp hs
        exact .escape hb (unescapes_of_unescape ht)
      | [_], hs => cases hs
      | [], hs => cases hs
    · rw [unescape_cons_of_ne hc] at hs
      obtain ⟨t, ht, rfl⟩ := Option.map_eq_some_iff.mp hs
      exact .plain hc (unescapes_of_unescape ht)

namespace Unescapes

variable {a b s t : List UInt8}

/-- A string that decodes does so in front of another one. -/
theorem append (h : Unescapes a b) (s : List UInt8) :
    unescape (a ++ s) = (unescape s).map fun t => b ++ t := by
  induction h with
  | nil => simp
  | plain hc _ ih =>
    rw [List.cons_append, unescape_cons_of_ne hc, ih, Option.map_map]
    rfl
  | escape hb _ ih =>
    simp only [List.cons_append]
    rw [unescape_percent, hb, Option.bind_some, ih, Option.map_map]
    rfl

theorem of_notMem (h : percent ∉ s) : Unescapes s s := by
  induction s with
  | nil => exact .nil
  | cons c s ih =>
    rw [List.mem_cons, not_or] at h
    exact .plain (Ne.symm h.1) (ih h.2)

theorem unescape_eq (h : Unescapes s t) : unescape s = some t := by
  have happ := h.append []
  rwa [List.append_nil, unescape, Option.map_some, List.append_nil] at happ

/-- Decoding never makes a string longer. -/
theorem length_le (h : Unescapes s t) : t.length ≤ s.length := by
  induction h with
  | nil => exact Nat.le_refl _
  | plain => simp only [List.length_cons]; omega
  | escape => simp only [List.length_cons]; omega

/-- A string that stays as long has no `'%'`. -/
theorem notMem_of_length (h : Unescapes s t) (hlen : s.length ≤ t.length) : percent ∉ s := by
  induction h with
  | nil => exact List.not_mem_nil
  | plain hc _ ih =>
    rw [List.mem_cons, not_or]
    exact ⟨Ne.symm hc, ih (Nat.le_of_succ_le_succ hlen)⟩
  | escape _ ht _ =>
    have hle := ht.length_le
    simp only [List.length_cons] at hlen
    omega

end Unescapes

/-! ## Appending to a URL -/

/-- The split is behind what has no slash. -/
theorem splitSlash_append {a : List UInt8} (h : slash ∉ a) (n : Nat) (s : List UInt8) :
    splitSlash n (a ++ s) = (a ++ (splitSlash n s).1, (splitSlash n s).2) := by
  induction a with
  | nil => rfl
  | cons x a ih =>
    rw [List.mem_cons, not_or] at h
    cases n with
    | zero => rw [List.cons_append, splitSlash, if_neg (Ne.symm h.1), ih h.2]; rfl
    | succ n =>
      rw [List.cons_append, splitSlash, if_neg (Ne.symm h.1), ih h.2]
      rfl

theorem splitSlash_slash (n : Nat) (s : List UInt8) :
    splitSlash (n + 1) (slash :: s) = (slash :: (splitSlash n s).1, (splitSlash n s).2) := by
  rw [splitSlash, if_pos rfl]

theorem splitSlash_zero (s : List UInt8) : splitSlash 0 (slash :: s) = ([], slash :: s) := by
  rw [splitSlash, if_pos rfl]

/-- An absolute URL `scheme://authority/path` without query and fragment. -/
structure Base where
  scheme : List UInt8
  authority : List UInt8
  /-- what follows the authority -/
  path : List UInt8
  decodedPath : List UInt8
  slash_scheme : slash ∉ scheme
  slash_authority : slash ∉ authority
  hash_notMem : hash ∉ scheme ∧ hash ∉ authority ∧ hash ∉ path
  question_notMem : question ∉ scheme ∧ question ∉ authority ∧ question ∉ path
  path_abs : path = [] ∨ ∃ rest, path = slash :: rest
  unescapes : Unescapes path decodedPath

namespace Base

variable (b : Base)

/-- `scheme://authority`, where 58 is the colon. -/
def origin : List UInt8 := b.scheme ++ [58, slash, slash] ++ b.authority

/-- The URL as a string. -/
def text : List UInt8 := b.origin ++ b.path

theorem hash_text : hash ∉ b.text := by
  obtain ⟨h1, h2, h3⟩ := b.hash_notMem
  have hsep : hash ∉ [58, slash, slash] := by decide
  simp only [text, origin, List.mem_append, not_or]
  exact ⟨⟨⟨h1, hsep⟩, h2⟩, h3⟩

theorem question_text : question ∉ b.text := by
  obtain ⟨h1, h2, h3⟩ := b.question_notMem
  have hsep : question ∉ [58, slash, slash] := by decide
  simp only [text, origin, List.mem_append, not_or]
  exact ⟨⟨⟨h1, hsep⟩, h2⟩, h3⟩

/-- The origin ends where the path begins. -/
theorem splitSlash_origin (s : List UInt8) :
    splitSlash 2 (b.origin ++ slash :: s) = (b.origin, slash :: s) := by
  have hcolon : slash ∉ b.scheme ++ [58] := by
    rw [List.mem_append, not_or]
    exact ⟨b.slash_scheme, by decide⟩
  have horigin : b.origin = (b.scheme ++ [58]) ++ slash :: slash :: b.authority := by
    simp [origin]
  rw [horigin, List.append_assoc, splitSlash_append hcolon, List.cons_append, List.cons_append,
    splitSlash_slash, splitSlash_slash, splitSlash_append b.slash_authority, splitSlash_zero]
  simp

/-- **A path that is appended**: the fragment and the query are cut off it, and it is decoded. -/
theorem parse_append (s : List UInt8) :
    parse (b.text ++ slash :: s) =
      (unescape (cut question (cut hash (slash :: s)).1).1).map fun path =>
        ⟨b.origin, b.decodedPath ++ path, (cut question (cut hash (slash :: s)).1).2,
          (cut hash (slash :: s)).2⟩ := by
  set raw := (cut question (cut hash (slash :: s)).1).1 with hraw
  have hsplit : splitSlash 2 (b.text ++ raw) = (b.origin, b.path ++ raw) := by
    obtain ⟨rest, hrest⟩ : ∃ rest, raw = slash :: rest := by
      rw [hraw, cut, if_neg (by decide), cut, if_neg (by decide)]
      exact ⟨_, rfl⟩
    rw [text, List.append_assoc, hrest]
    rcases b.path_abs with hnil | ⟨path, hpath⟩
    · rw [hnil, List.nil_append, b.splitSlash_origin]
    · rw [hpath, List.cons_append, b.splitSlash_origin]
  rw [parse, cut_append b.hash_text]
  simp only
  rw [cut_append b.question_text]
  simp only
  rw [← hraw, hsplit, b.unescapes.append, Option.map_map]
  rfl

end Base

end Url
