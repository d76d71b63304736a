import SigningAgent.Crypto.Hash
import SigningAgent.Crypto.ReverseBytes
import SigningAgent.Lib.Hex

/-!
# Hashes as strings (`crypto/hash.go`)

The string of a hash is the hexadecimal encoding of its bytes in reverse order. `Decode` reads such
a string into a hash; digits that are missing on the left are zeros.

* A Go string is taken by its bytes, and a `Hash` is a `[32]byte`. `String` works on a copy of it.
* `decode` returns what `dst` is afterwards, and the error.

Results:
* **`hash_strings`**: a hash is read back from its string; `Decode` succeeds exactly on up to 64
  hexadecimal digits, of which the destination then has the string, in lower case and padded; and it
  leaves the destination alone otherwise.
-/

namespace SigningAgent.Crypto

variable {ε : Type}

/-! ## The code -/

def maxHashStringSize : Nat := hashSize * 2

inductive DecodeError where
  /-- `ErrHashStrSize`: "max hash string length is 64 bytes" -/
  | hashStrSize
  | hex (e : Hex.Error)
  deriving DecidableEq, Repr

/-- `String`. -/
def hashString (hash : Bytes) : Outcome ε Bytes := do
  let hash ← (List.range (hashSize / 2)).foldlM (fun h i => crossAssign h h i) hash
  .ok (Hex.encode hash)

/-- The source bytes of the decoder: an odd number of digits gets a leading `'0'`. -/
def srcBytes (src : Bytes) : Bytes := if src.length % 2 = 0 then src else 48 :: src

/-- `Decode`. -/
def decode (dst src : Bytes) : Outcome ε (Bytes × Option DecodeError) :=
  if maxHashStringSize < src.length then .ok (dst, some .hashStrSize)
  else
    match Hex.decode (srcBytes src) with
    | .error err => .ok (dst, some (.hex err))
    | .ok b => do
      let decodedLen := (srcBytes src).length / 2
      let reversedHash ←
        copyFrom (List.replicate hashSize 0) ((hashSize : Int) - decodedLen) b
      let dst ← (List.range (hashSize / 2)).foldlM (crossAssign reversedHash) dst
      .ok (dst, none)

/-- `NewHashFromStr`. -/
def newHashFromStr (hash : Bytes) : Outcome DecodeError Bytes := do
  match ← decode (List.replicate hashSize 0) hash with
  | (_, some err) => .error (.error err)
  | (ret, none) => .ok ret

/-! ## What the loops amount to -/

theorem hashString_eq {hash : Bytes} (h : hash.length = hashSize) :
    hashString hash = (.ok (Hex.encode hash.reverse) : Outcome ε _) := by
  have hloop := @foldlM_swap_all ε _ hash (by rw [h]; rfl)
  rw [h] at hloop
  rw [hashString, hloop]
  rfl

theorem length_srcBytes (src : Bytes) : (srcBytes src).length % 2 = 0 := by
  unfold srcBytes
  split_ifs with heven
  · exact heven
  · rw [List.length_cons]
    omega

theorem length_srcBytes_le {src : Bytes} (h : src.length ≤ maxHashStringSize) :
    (srcBytes src).length ≤ maxHashStringSize := by
  unfold srcBytes
  unfold maxHashStringSize hashSize at *
  split_ifs with heven
  · exact h
  · rw [List.length_cons]
    omega

/-- The leading zero is a digit. -/
theorem forall_srcBytes (src : Bytes) :
    (∀ c ∈ srcBytes src, Hex.IsDigit c) ↔ ∀ c ∈ src, Hex.IsDigit c := by
  unfold srcBytes
  split_ifs with heven
  · rfl
  · rw [List.forall_mem_cons]
    exact and_iff_right (by decide)

theorem length_decoded {src b : Bytes} (hsize : src.length ≤ maxHashStringSize)
    (hdec : Hex.decode (srcBytes src) = .ok b) : b.length ≤ hashSize := by
  have hbound := length_srcBytes_le hsize
  rw [Hex.length_of_decode hdec] at hbound
  unfold maxHashStringSize at hbound
  omega

/-- `b` at the end of an array of zeros. -/
def rightAligned (b : Bytes) : Bytes := List.replicate (hashSize - b.length) 0 ++ b

theorem length_rightAligned {b : Bytes} (h : b.length ≤ hashSize) :
    (rightAligned b).length = hashSize := by
  rw [rightAligned, List.length_append, List.length_replicate, Nat.sub_add_cancel h]

/-- A string that is short enough and decodes: the bytes are right-aligned and reversed. -/
theorem decode_ok {dst src b : Bytes} (hdst : dst.length = hashSize)
    (hsize : src.length ≤ maxHashStringSize) (hdec : Hex.decode (srcBytes src) = .ok b) :
    (decode dst src : Outcome ε _) = .ok ((rightAligned b).reverse, none) := by
  have hle := length_decoded hsize hdec
  have hlen := length_rightAligned hle
  have hloop := @foldlM_crossAssign_all ε _ (rightAligned b) dst (by rw [hdst, hlen])
    (by rw [hlen]; rfl)
  rw [hlen, rightAligned] at hloop
  have hhalf : (srcBytes src).length / 2 = b.length := by
    rw [Hex.length_of_decode hdec]
    omega
  rw [decode, if_neg (Nat.not_lt.mpr hsize), hdec]
  simp only [hhalf, copyFrom_replicate hle, hloop, rightAligned, bind, Except.bind]

/-- A string that is too long or has another byte is refused. -/
theorem decode_refused {src : Bytes} (dst : Bytes)
    (h : ¬ (src.length ≤ maxHashStringSize ∧ ∀ c ∈ src, Hex.IsDigit c)) :
    ∃ err, (decode dst src : Outcome ε _) = .ok (dst, some err) := by
  unfold decode
  by_cases hsize : src.length ≤ maxHashStringSize
  · have hdigits : ¬ ∀ c ∈ srcBytes src, Hex.IsDigit c := fun hall =>
      h ⟨hsize, (forall_srcBytes src).mp hall⟩
    rw [if_neg (Nat.not_lt.mpr hsize)]
    cases hdec : Hex.decode (srcBytes src) with
    | error err => exact ⟨.hex err, rfl⟩
    | ok b => exact absurd ((Hex.decode_ok_iff (length_srcBytes src)).mp ⟨b, hdec⟩) hdigits
  · exact ⟨.hashStrSize, if_pos (Nat.not_le.mp hsize)⟩

/-- The zero bytes on the left are zeros in the string, of which an odd string has one already. -/
theorem encode_padded {src b : Bytes} (hsize : src.length ≤ maxHashStringSize)
    (hdec : Hex.decode (srcBytes src) = .ok b) :
    Hex.encode (rightAligned b) =
      List.replicate (maxHashStringSize - src.length) 48 ++ src.map Hex.lower := by
  have hlen := Hex.length_of_decode hdec
  rw [rightAligned, Hex.encode_append, Hex.encode_replicate_zero, Hex.encode_of_decode hdec]
  unfold srcBytes at *
  unfold maxHashStringSize at *
  split_ifs at * with heven
  · rw [show 2 * (hashSize - b.length) = hashSize * 2 - src.length by omega]
  · rw [List.length_cons] at hlen
    rw [show hashSize * 2 - src.length = 2 * (hashSize - b.length) + 1 by omega,
      List.replicate_succ', List.append_assoc]
    rfl

/-! ## Round trips -/

/-- **Hash strings round-trip.** -/
theorem hash_strings :
    (∀ h : Digest, ∃ s, hashString h.1 = (.ok s : Outcome Empty _) ∧
      newHashFromStr s = .ok h.1) ∧
    ∀ (d : Digest) (s : Bytes), ∃ (d' : Digest) (err : Option DecodeError),
      decode d.1 s = (.ok (d'.1, err) : Outcome Empty _) ∧
      (err = none ↔ s.length ≤ 64 ∧ ∀ c ∈ s, Hex.IsDigit c) ∧
      (err = none → hashString d'.1 =
        (.ok (List.replicate (64 - s.length) 48 ++ s.map Hex.lower) : Outcome Empty _)) ∧
      (err ≠ none → d' = d) := by
  constructor
  · rintro ⟨h, hlen⟩
    refine ⟨Hex.encode h.reverse, hashString_eq hlen, ?_⟩
    have hstr : (Hex.encode h.reverse).length = maxHashStringSize := by
      rw [Hex.length_encode, List.length_reverse, hlen]
      rfl
    have hdec : Hex.decode (srcBytes (Hex.encode h.reverse)) = .ok h.reverse := by
      rw [srcBytes, if_pos (by rw [hstr]; rfl), Hex.decode_encode]
    have hret := @decode_ok DecodeError (List.replicate hashSize 0) _ _ List.length_replicate
      hstr.le hdec
    rw [rightAligned, List.length_reverse, hlen, Nat.sub_self, List.replicate_zero,
      List.nil_append, List.reverse_reverse] at hret
    rw [newHashFromStr, hret]
    rfl
  · rintro ⟨d, hd⟩ s
    by_cases hs : s.length ≤ maxHashStringSize ∧ ∀ c ∈ s, Hex.IsDigit c
    · obtain ⟨b, hdec⟩ :=
        (Hex.decode_ok_iff (length_srcBytes s)).mpr ((forall_srcBytes s).mpr hs.2)
      have hlen : (rightAligned b).reverse.length = hashSize := by
        rw [List.length_reverse, length_rightAligned (length_decoded hs.1 hdec)]
      refine ⟨⟨_, hlen⟩, none, decode_ok hd hs.1 hdec, iff_of_true rfl hs, fun _ => ?_,
        fun h => absurd rfl h⟩
      rw [hashString_eq hlen, List.reverse_reverse, encode_padded hs.1 hdec]
      rfl
    · obtain ⟨err, herr⟩ := @decode_refused Empty _ d hs
      exact ⟨⟨d, hd⟩, some err, herr, iff_of_false (Option.some_ne_none _) hs,
        fun h => absurd h (Option.some_ne_none _), fun _ => rfl⟩

end SigningAgent.Crypto
