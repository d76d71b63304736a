import Mathlib.Data.List.Basic
import Mathlib.Tactic.SplitIfs

/-!
# Hexadecimal

Two digits encode a byte, the high half first. `encode` writes digits in lower case; `decode` reads
both cases and stops at the first byte that is no digit.

* `decode_encode`, and `encode_of_decode`: the other way round the digits come back in lower case.
* `decode_ok_iff`: a string of even length decodes if and only if it has only digits.
-/

namespace Hex

/-- A digit, in ASCII. -/
def IsDigit (c : UInt8) : Prop :=
  48 ≤ c ∧ c ≤ 57 ∨ 97 ≤ c ∧ c ≤ 102 ∨ 65 ≤ c ∧ c ≤ 70

instance (c : UInt8) : Decidable (IsDigit c) := inferInstanceAs (Decidable (_ ∨ _))

/-- A letter of the upper case becomes one of the lower case. -/
def lower (c : UInt8) : UInt8 := if 65 ≤ c ∧ c ≤ 90 then c + 32 else c

/-- The digit of a number below 16. -/
def digit (n : Nat) : UInt8 := if n < 10 then UInt8.ofNat (48 + n) else UInt8.ofNat (87 + n)

/-- The value of a digit. -/
def value (c : UInt8) : Option Nat :=
  if 48 ≤ c ∧ c ≤ 57 then some (c.toNat - 48)
  else if 97 ≤ c ∧ c ≤ 102 then some (c.toNat - 87)
  else if 65 ≤ c ∧ c ≤ 70 then some (c.toNat - 55)
  else none

inductive Error where
  | invalidByte (b : UInt8)
  /-- an odd number of digits -/
  | length
  deriving DecidableEq, Repr

def encode (b : List UInt8) : List UInt8 :=
  b.flatMap fun x => [digit (x.toNat / 16), digit (x.toNat % 16)]

def decode : List UInt8 → Except Error (List UInt8)
  | [] => .ok []
  | [p] =>
    match value p with
    | none => .error (.invalidByte p)
    | some _ => .error .length
  | p :: q :: rest =>
    match value p with
    | none => .error (.invalidByte p)
    | some a =>
      match value q with
      | none => .error (.invalidByte q)
      | some b =>
        match decode rest with
        | .error e => .error e
        | .ok tail => .ok (UInt8.ofNat (16 * a + b) :: tail)

/-! ## One digit -/

/-- What holds of the 256 bytes holds of every byte. -/
theorem forall_byte {P : UInt8 → Prop} (h : ∀ n, n < 256 → P (UInt8.ofNat n)) (c : UInt8) :
    P c := by
  have hc := h c.toNat c.toNat_lt
  rwa [UInt8.ofNat_toNat] at hc

theorem value_isSome_iff (c : UInt8) : (value c).isSome = true ↔ IsDigit c := by
  unfold value IsDigit
  split_ifs with h1 h2 h3 <;> simp_all

theorem value_digit {n : Nat} (h : n < 16) : value (digit n) = some n := by
  have hall : ∀ n, n < 16 → value (digit n) = some n := by decide
  exact hall n h

theorem value_lt {c : UInt8} {n : Nat} (h : value c = some n) : n < 16 := by
  have hall := forall_byte (P := fun c => ∀ n ∈ value c, n < 16) (by decide +kernel)
  exact hall c n h

/-- A digit is read and written back in lower case. -/
theorem digit_value {c : UInt8} {n : Nat} (h : value c = some n) : digit n = lower c := by
  have hall := forall_byte (P := fun c => ∀ n ∈ value c, digit n = lower c) (by decide +kernel)
  exact hall c n h

/-! ## Strings -/

theorem length_encode (b : List UInt8) : (encode b).length = 2 * b.length := by
  induction b with
  | nil => rfl
  | cons x b ih =>
    rw [encode, List.flatMap_cons, List.length_append, ← encode, ih]
    simp only [List.length_cons, List.length_nil]
    omega

theorem encode_append (a b : List UInt8) : encode (a ++ b) = encode a ++ encode b :=
  List.flatMap_append

theorem encode_replicate_zero (n : Nat) :
    encode (List.replicate n 0) = List.replicate (2 * n) 48 := by
  induction n with
  | zero => rfl
  | succ n ih =>
    rw [List.replicate_succ, encode, List.flatMap_cons, ← encode, ih]
    rfl

theorem decode_encode (b : List UInt8) : decode (encode b) = .ok b := by
  induction b with
  | nil => rfl
  | cons x b ih =>
    have hx := x.toNat_lt
    show decode (digit (x.toNat / 16) :: digit (x.toNat % 16) :: encode b) = _
    rw [decode, value_digit (by omega), value_digit (by omega), ih]
    have hbyte : 16 * (x.toNat / 16) + x.toNat % 16 = x.toNat := Nat.div_add_mod _ _
    simp only [hbyte, UInt8.ofNat_toNat]

/-- What was decoded is encoded in lower case. -/
theorem encode_of_decode : ∀ {s b : List UInt8}, decode s = .ok b → encode b = s.map lower
  | [], b, h => by
    cases h
    rfl
  | [p], b, h => by
    rw [decode] at h
    cases hp : value p <;> rw [hp] at h <;> cases h
  | p :: q :: rest, b, h => by
    rw [decode] at h
    cases hp : value p with
    | none => rw [hp] at h; cases h
    | some n =>
      cases hq : value q with
      | none => rw [hp, hq] at h; cases h
      | some m =>
        cases hrest : decode rest with
        | error e => rw [hp, hq, hrest] at h; cases h
        | ok tail =>
          rw [hp, hq, hrest] at h
          cases h
          have hn := value_lt hp
          have hm := value_lt hq
          have hbyte : (UInt8.ofNat (16 * n + m)).toNat = 16 * n + m := by
            rw [UInt8.toNat_ofNat']
            omega
          show digit (_ / 16) :: digit (_ % 16) :: encode tail = _
          rw [hbyte, encode_of_decode hrest, Nat.mul_add_div (by decide), Nat.div_eq_of_lt hm,
            Nat.mul_add_mod, Nat.mod_eq_of_lt hm, Nat.add_zero, digit_value hp, digit_value hq]
          rfl

theorem length_of_decode {s b : List UInt8} (h : decode s = .ok b) : s.length = 2 * b.length := by
  rw [← length_encode, encode_of_decode h, List.length_map]

/-- A string of even length decodes if it has only digits. -/
theorem decode_ok_iff : ∀ {s : List UInt8}, s.length % 2 = 0 →
    ((∃ b, decode s = .ok b) ↔ ∀ c ∈ s, IsDigit c)
  | [], _ => by simp [decode]
  | [p], h => by cases h
  | p :: q :: rest, h => by
    have ih := @decode_ok_iff rest (by simpa [Nat.add_assoc] using h)
    rw [List.forall_mem_cons, List.forall_mem_cons, ← ih, ← value_isSome_iff, ← value_isSome_iff,
      decode]
    cases value p with
    | none => simp
    | some n =>
      cases value q with
      | none => simp
      | some m => cases decode rest <;> simp

end Hex
