import SigningAgent.Go

/-!
# The hash functions of the Merkle tree (`crypto/hash.go`)

SHA-256 is a parameter: an arbitrary function from byte slices to 32 bytes. `hashB` and
`doubleHashB` are `HashB` and `DoubleHashB`, which return the sum as a slice.
-/

namespace SigningAgent.Crypto

/-- `HashSize`: the bytes of a SHA-256 sum. -/
def hashSize : Nat := 32

/-- A `[32]byte`. -/
abbrev Digest := { b : Bytes // b.length = hashSize }

/-- `HashB`: `sha256.Sum256(b)` as a slice. -/
def hashB (sum256 : Bytes → Digest) (b : Bytes) : Bytes := (sum256 b).1

/-- `DoubleHashB`: the sum of the sum. -/
def doubleHashB (sum256 : Bytes → Digest) (b : Bytes) : Bytes :=
  (sum256 (sum256 b).1).1

variable (sum256 : Bytes → Digest)

@[simp] theorem length_hashB (b : Bytes) : (hashB sum256 b).length = hashSize := (sum256 b).2

@[simp] theorem length_doubleHashB (b : Bytes) : (doubleHashB sum256 b).length = hashSize :=
  (sum256 _).2

/-- SHA-256 has no collision among the byte strings of `xs`. -/
def NoCollision (xs : List Bytes) : Prop :=
  ∀ a ∈ xs, ∀ b ∈ xs, sum256 a = sum256 b → a = b

theorem NoCollision.hashB_inj {xs : List Bytes} (h : NoCollision sum256 xs) {a b : Bytes}
    (ha : a ∈ xs) (hb : b ∈ xs) (he : hashB sum256 a = hashB sum256 b) : a = b :=
  h a ha b hb (Subtype.ext he)

end SigningAgent.Crypto
