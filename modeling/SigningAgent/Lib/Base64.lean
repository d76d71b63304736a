import Mathlib.Data.List.Basic

/-!
# Base64

Three bytes are four digits of an alphabet; a last group of one or two bytes is two or three digits,
with `=` up to four in the padded form. `decode` skips line breaks, and it does not look at the bits
of the last digit that no byte needs.

* `Alphabet`: 64 digits that are told apart, and none of which is `=` or a line break.
* **`decode_encode`**: the round trip, for every alphabet, padded or not.
-/

namespace Base64

/-- A character that `decode` skips. -/
def isBreak (c : Char) : Bool := c = '\n' || c = '\r'

/-- The digits, and what they stand for. -/
structure Alphabet where
  digit : Nat → Char
  value : Char → Option Nat
  value_digit : ∀ n, n < 64 → value (digit n) = some n
  value_pad : value '=' = none
  digit_visible : ∀ n, n < 64 → isBreak (digit n) = false

/-- The letters and the ten figures; the last two digits are the alphabet's own. -/
def digitOf (c62 c63 : Char) (n : Nat) : Char :=
  if n < 26 then Char.ofNat (65 + n)
  else if n < 52 then Char.ofNat (71 + n)
  else if n < 62 then Char.ofNat (n - 4)
  else if n = 62 then c62
  else c63

def valueOf (c62 c63 : Char) (c : Char) : Option Nat :=
  if 'A' ≤ c ∧ c ≤ 'Z' then some (c.toNat - 65)
  else if 'a' ≤ c ∧ c ≤ 'z' then some (c.toNat - 71)
  else if '0' ≤ c ∧ c ≤ '9' then some (c.toNat + 4)
  else if c = c62 then some 62
  else if c = c63 then some 63
  else none

/-- The alphabet with `+` and `/`. -/
def standard : Alphabet where
  digit := digitOf '+' '/'
  value := valueOf '+' '/'
  value_digit := by decide
  value_pad := by decide
  digit_visible := by decide

/-- The alphabet for URLs, with `-` and `_`. -/
def url : Alphabet where
  digit := digitOf '-' '_'
  value := valueOf '-' '_'
  value_digit := by decide
  value_pad := by decide
  digit_visible := by decide

variable (A : Alphabet) (padded : Bool)

def encodeChars : List UInt8 → List Char
  | [] => []
  | [x] => A.digit (x.toNat / 4) :: A.digit (x.toNat % 4 * 16) ::
      if padded then ['=', '='] else []
  | [x, y] => A.digit (x.toNat / 4) :: A.digit (x.toNat % 4 * 16 + y.toNat / 16) ::
      A.digit (y.toNat % 16 * 4) :: if padded then ['='] else []
  | x :: y :: z :: rest => A.digit (x.toNat / 4) :: A.digit (x.toNat % 4 * 16 + y.toNat / 16) ::
      A.digit (y.toNat % 16 * 4 + z.toNat / 64) :: A.digit (z.toNat % 64) :: encodeChars rest

/-- One byte, of two digits. -/
def decodeOne (a b : Char) : Option (List UInt8) := do
  let p ← A.value a
  let q ← A.value b
  pure [UInt8.ofNat (p * 4 + q / 16)]

/-- Two bytes, of three digits. -/
def decodeTwo (a b c : Char) : Option (List UInt8) := do
  let p ← A.value a
  let q ← A.value b
  let r ← A.value c
  pure [UInt8.ofNat (p * 4 + q / 16), UInt8.ofNat (q % 16 * 16 + r / 4)]

/-- Three bytes, of four digits. -/
def decodeThree (a b c d : Char) : Option (List UInt8) := do
  let p ← A.value a
  let q ← A.value b
  let r ← A.value c
  let s ← A.value d
  pure [UInt8.ofNat (p * 4 + q / 16), UInt8.ofNat (q % 16 * 16 + r / 4),
    UInt8.ofNat (r % 4 * 64 + s)]

def decodeChars : List Char → Option (List UInt8)
  | [] => some []
  | [a, b] => if padded then none else decodeOne A a b
  | [a, b, c] => if padded then none else decodeTwo A a b c
  | a :: b :: c :: d :: rest =>
    if padded ∧ d = '=' then
      -- nothing may follow the padding
      if rest ≠ [] then none else if c = '=' then decodeOne A a b else decodeTwo A a b c
    else do
      let bytes ← decodeThree A a b c d
      let tail ← decodeChars rest
      pure (bytes ++ tail)
  | [_] => none

def encode (b : List UInt8) : String := String.ofList (encodeChars A padded b)

def decode (s : String) : Option (List UInt8) :=
  decodeChars A padded (s.toList.filter fun c => !isBreak c)

variable {A padded}

/-! ## One group -/

/-- What six bits of a byte and the rest of it make. -/
theorem ofNat_split (x : UInt8) {q : Nat} (hq : q < 16) :
    UInt8.ofNat (x.toNat / 4 * 4 + (x.toNat % 4 * 16 + q) / 16) = x := by
  have h : x.toNat / 4 * 4 + (x.toNat % 4 * 16 + q) / 16 = x.toNat := by omega
  rw [h, UInt8.ofNat_toNat]

theorem digit_ne_pad {n : Nat} (hn : n < 64) : A.digit n ≠ '=' := by
  intro h
  have := A.value_digit n hn
  rw [h, A.value_pad] at this
  cases this

theorem decodeOne_digits (x : UInt8) :
    decodeOne A (A.digit (x.toNat / 4)) (A.digit (x.toNat % 4 * 16)) = some [x] := by
  have hx := x.toNat_lt
  have hsplit := ofNat_split x (q := 0) (by decide)
  simp only [decodeOne, A.value_digit (x.toNat / 4) (by omega),
    A.value_digit (x.toNat % 4 * 16) (by omega), Option.bind_eq_bind, Option.bind_some]
  rw [Nat.add_zero] at hsplit
  rw [hsplit]
  rfl

theorem decodeTwo_digits (x y : UInt8) :
    decodeTwo A (A.digit (x.toNat / 4)) (A.digit (x.toNat % 4 * 16 + y.toNat / 16))
      (A.digit (y.toNat % 16 * 4)) = some [x, y] := by
  have hx := x.toNat_lt
  have hy := y.toNat_lt
  have hsecond : (x.toNat % 4 * 16 + y.toNat / 16) % 16 * 16 + y.toNat % 16 * 4 / 4 = y.toNat := by
    omega
  simp only [decodeTwo, A.value_digit (x.toNat / 4) (by omega),
    A.value_digit (x.toNat % 4 * 16 + y.toNat / 16) (by omega),
    A.value_digit (y.toNat % 16 * 4) (by omega), Option.bind_eq_bind, Option.bind_some]
  rw [ofNat_split x (by omega), hsecond, UInt8.ofNat_toNat]
  rfl

theorem decodeThree_digits (x y z : UInt8) :
    decodeThree A (A.digit (x.toNat / 4)) (A.digit (x.toNat % 4 * 16 + y.toNat / 16))
      (A.digit (y.toNat % 16 * 4 + z.toNat / 64)) (A.digit (z.toNat % 64)) = some [x, y, z] := by
  have hx := x.toNat_lt
  have hy := y.toNat_lt
  have hz := z.toNat_lt
  have hsecond : (x.toNat % 4 * 16 + y.toNat / 16) % 16 * 16 +
      (y.toNat % 16 * 4 + z.toNat / 64) / 4 = y.toNat := by omega
  have hthird : (y.toNat % 16 * 4 + z.toNat / 64) % 4 * 64 + z.toNat % 64 = z.toNat := by omega
  simp only [decodeThree, A.value_digit (x.toNat / 4) (by omega),
    A.value_digit (x.toNat % 4 * 16 + y.toNat / 16) (by omega),
    A.value_digit (y.toNat % 16 * 4 + z.toNat / 64) (by omega),
    A.value_digit (z.toNat % 64) (by omega), Option.bind_eq_bind, Option.bind_some]
  rw [ofNat_split x (by omega), hsecond, hthird, UInt8.ofNat_toNat, UInt8.ofNat_toNat]
  rfl

/-! ## Strings -/

theorem decodeChars_encodeChars : ∀ b, decodeChars A padded (encodeChars A padded b) = some b
  | [] => rfl
  | [x] => by
    cases padded with
    | false => exact decodeOne_digits x
    | true =>
      show (if _ then _ else _) = _
      simpa using decodeOne_digits x
  | [x, y] => by
    cases padded with
    | false => exact decodeTwo_digits x y
    | true =>
      have hy := y.toNat_lt
      show (if _ then _ else _) = _
      simpa [digit_ne_pad (A := A) (n := y.toNat % 16 * 4) (by omega)] using decodeTwo_digits x y
  | x :: y :: z :: rest => by
    have hpad := digit_ne_pad (A := A) (n := z.toNat % 64) (by omega)
    rw [encodeChars, decodeChars, if_neg (fun h => hpad h.2), decodeThree_digits,
      decodeChars_encodeChars rest]
    rfl

theorem visible_of_mem_encodeChars : ∀ {b : List UInt8} {c : Char},
    c ∈ encodeChars A padded b → isBreak c = false
  | [], c, h => by simp [encodeChars] at h
  | [x], c, h => by
    have hx := x.toNat_lt
    have h1 := A.digit_visible (x.toNat / 4) (by omega)
    have h2 := A.digit_visible (x.toNat % 4 * 16) (by omega)
    cases padded <;> simp [encodeChars] at h <;> rcases h with rfl | rfl | rfl <;>
      first | assumption | rfl
  | [x, y], c, h => by
    have hx := x.toNat_lt
    have hy := y.toNat_lt
    have h1 := A.digit_visible (x.toNat / 4) (by omega)
    have h2 := A.digit_visible (x.toNat % 4 * 16 + y.toNat / 16) (by omega)
    have h3 := A.digit_visible (y.toNat % 16 * 4) (by omega)
    cases padded <;> simp [encodeChars] at h <;> rcases h with rfl | rfl | rfl | rfl <;>
      first | assumption | rfl
  | x :: y :: z :: rest, c, h => by
    have hx := x.toNat_lt
    have hy := y.toNat_lt
    have hz := z.toNat_lt
    rw [encodeChars] at h
    simp only [List.mem_cons] at h
    rcases h with rfl | rfl | rfl | rfl | h
    · exact A.digit_visible _ (by omega)
    · exact A.digit_visible _ (by omega)
    · exact A.digit_visible _ (by omega)
    · exact A.digit_visible _ (by omega)
    · exact visible_of_mem_encodeChars h

/-- **The round trip.** -/
theorem decode_encode (b : List UInt8) : decode A padded (encode A padded b) = some b := by
  unfold decode encode
  rw [String.toList_ofList, List.filter_eq_self.mpr, decodeChars_encodeChars]
  intro c hc
  simp [visible_of_mem_encodeChars hc]

end Base64
