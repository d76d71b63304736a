import Mathlib.Data.Nat.Digits.Lemmas

/-!
# Numbers as bytes

* `little` and `big` are the values of a byte string, least or most significant byte first.
* `bytes n` is the shortest big-endian encoding of `n`; that of 0 is empty.

`big_bytes`: the encoding has the value it encodes. `length_bytes_le_iff`: it fits into `k` bytes if
and only if the number is less than `256 ^ k`. `big_replicate_append`: leading zero bytes do not
count.
-/

namespace Endian

/-- The value, least significant byte first. -/
def little (b : List UInt8) : Nat := Nat.ofDigits 256 (b.map UInt8.toNat)

/-- The value, most significant byte first. -/
def big (b : List UInt8) : Nat := little b.reverse

/-- The shortest big-endian encoding. -/
def bytes (n : Nat) : List UInt8 := ((Nat.digits 256 n).map UInt8.ofNat).reverse

@[simp] theorem little_reverse (b : List UInt8) : little b.reverse = big b := rfl

@[simp] theorem big_reverse (b : List UInt8) : big b.reverse = little b := by
  rw [big, List.reverse_reverse]

/-- The digits in base 256 are bytes. -/
theorem toNat_ofNat_digits (n : Nat) :
    ((Nat.digits 256 n).map UInt8.ofNat).map UInt8.toNat = Nat.digits 256 n := by
  rw [List.map_map]
  refine (List.map_congr_left fun d hd => ?_).trans (List.map_id _)
  have hlt : d < 256 := Nat.digits_lt_base (by decide) hd
  simpa using Nat.mod_eq_of_lt hlt

@[simp] theorem big_bytes (n : Nat) : big (bytes n) = n := by
  rw [bytes, big_reverse, little, toNat_ofNat_digits, Nat.ofDigits_digits]

theorem length_bytes_le_iff (n k : Nat) : (bytes n).length ≤ k ↔ n < 256 ^ k := by
  rw [bytes, List.length_reverse, List.length_map, Nat.digits_length_le_iff (by decide)]

/-- Leading zero bytes do not count. -/
theorem big_replicate_append (k : Nat) (b : List UInt8) :
    big (List.replicate k 0 ++ b) = big b := by
  rw [big, List.reverse_append, List.reverse_replicate, little, List.map_append,
    List.map_replicate, UInt8.toNat_zero, Nat.ofDigits_append_replicate_zero]
  rfl

end Endian
