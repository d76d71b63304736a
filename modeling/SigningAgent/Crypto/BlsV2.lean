import SigningAgent.Crypto.ReverseBytes
import SigningAgent.Lib.Endian

/-!
# BLS keys, version 2 (`crypto/blsv2.go`, `crypto/blswrapper.go`)

`GenerateBLSKeysV2` derives a number below the group order from a seed and hands it to `BLSKeys`, in
32 bytes, least significant byte first.

* `hkdf IKM salt n` is what `Read` brings of `hkdf.New(sha256.New, IKM, salt, nil)` into a buffer of
  `n` bytes: the bytes read, or an error.
* `blsKeys` is `BLSKeys` without a random generator; its three results are a `Keys`. A nil slice is
  `none`.
* `big.Int` is `Nat`, and `Bytes` is `Endian.bytes`.

Results:
* `encode_scalar`: no number below the order makes `toBytes` or `reverseBytes` panic, however many
  leading zero bytes it has.
* **`generateBLSKeysV2_scalar`**: `BLSKeys` is handed the residue of the output of HKDF; a seed
  that is too short brings an error and no key.
-/

namespace SigningAgent.Crypto

variable {ε : Type}

/-! ## The code -/

def recommendedSeedLen : Nat := 32

def minSeedBytes : Nat := 16

def salt : Bytes := utf8 "BLS-SIG-KEYGEN-SALT-"

/-- `hkdf_mod_r_L`. -/
def hkdfModRL : Nat := 48

def errInvalidSeedLen : String := "seed length must be between 128 and 512 bits"

/-- `curveOrder`: the order of the groups of BLS12-381. -/
def curveOrder : Nat :=
  52435875175126190479447740508185965837690552500527637822603658699938581184513

/-- What `BLSKeys` and `GenerateBLSKeysV2` return. -/
structure Keys where
  blsPublic : Option Bytes
  blsSecret : Option Bytes
  err : Option String
  deriving DecidableEq, Repr

/-- `toBytes`. -/
def toBytes (b length : Nat) : Outcome ε Bytes :=
  let result := List.replicate length 0
  let bytes := Endian.bytes b
  copyFrom result ((length : Int) - bytes.length) bytes

section

variable (hkdf : Bytes → Bytes → Nat → Except String Bytes)

/-- `hkdf_mod_r`. -/
def hkdfModR (IKM : Bytes) : Except String Nat :=
  match hkdf IKM salt hkdfModRL with
  | .error err => .error err
  | .ok okm =>
    if okm.length ≠ hkdfModRL then .error "hkdf: entropy limit reached"
    else .ok (Endian.big okm % curveOrder)

/-- `DeriveMasterSK`. -/
def deriveMasterSK (seed : Bytes) : Except String Nat :=
  if seed.length < minSeedBytes then .error errInvalidSeedLen else hkdfModR hkdf seed

/-- What `GenerateBLSKeysV2` makes of the results of `BLSKeys`. -/
def Keys.generated (k : Keys) : Keys :=
  match k.err with
  | none => k
  | some err => { k with err := some ("failed to generate BLS keys: " ++ err) }

/-- `GenerateBLSKeysV2`. -/
def generateBLSKeysV2 (blsKeys : Bytes → Keys) : Option Bytes → Outcome Empty Keys
  | none => .ok ⟨none, none, some "nil seed input"⟩
  | some seed =>
    match deriveMasterSK hkdf seed with
    | .error err => .ok ⟨none, none, some ("DeriveMasterSK: " ++ err)⟩
    | .ok masterKey => do
      let key ← toBytes masterKey recommendedSeedLen
      let key ← reverseBytes key
      .ok (blsKeys key).generated

end

/-! ## Encoding the scalar -/

/-- The order fits into the buffer. -/
theorem curveOrder_lt : curveOrder < 256 ^ recommendedSeedLen := by decide +kernel

/-- A number that fits is right-aligned, and the rest is zero. -/
theorem toBytes_eq {n length : Nat} (h : n < 256 ^ length) : (toBytes n length : Outcome ε _) =
    .ok (List.replicate (length - (Endian.bytes n).length) 0 ++ Endian.bytes n) :=
  copyFrom_replicate ((Endian.length_bytes_le_iff n length).mpr h)

/-- The two steps of the encoding of a number below the order. -/
theorem encode_scalar {n : Nat} (h : n < curveOrder) : ∃ be key : Bytes,
    (toBytes n recommendedSeedLen : Outcome ε _) = .ok be ∧
    (reverseBytes be : Outcome ε _) = .ok key ∧
    key.length = recommendedSeedLen ∧ Endian.little key = n := by
  have hfits := h.trans curveOrder_lt
  have hlen := (Endian.length_bytes_le_iff n recommendedSeedLen).mpr hfits
  set be := List.replicate (recommendedSeedLen - (Endian.bytes n).length) 0 ++ Endian.bytes n
    with hbe
  have hbelen : be.length = recommendedSeedLen := by
    rw [hbe, List.length_append, List.length_replicate, Nat.sub_add_cancel hlen]
  refine ⟨be, be.reverse, toBytes_eq hfits, reverseBytes_eq (.inl (by rw [hbelen]; rfl)), ?_, ?_⟩
  · rw [List.length_reverse, hbelen]
  · rw [Endian.little_reverse, hbe, Endian.big_replicate_append, Endian.big_bytes]

/-! ## What is handed to `BLSKeys` -/

section

variable {hkdf : Bytes → Bytes → Nat → Except String Bytes} {seed okm key : Bytes}

/-- `GenerateBLSKeysV2` hands `key` to `BLSKeys`, and returns what comes of it. -/
def Passes (hkdf : Bytes → Bytes → Nat → Except String Bytes) (seed key : Bytes) : Prop :=
  ∀ blsKeys, generateBLSKeysV2 hkdf blsKeys (some seed) = .ok (blsKeys key).generated

/-- It hands over one string only. -/
theorem Passes.unique {key' : Bytes} (h : Passes hkdf seed key) (h' : Passes hkdf seed key') :
    key = key' := by
  have heq := (h fun k => ⟨some k, none, none⟩).symm.trans (h' fun k => ⟨some k, none, none⟩)
  simpa [Keys.generated] using heq

/-- HKDF brings `okm` for a seed that is long enough. -/
structure Derives (hkdf : Bytes → Bytes → Nat → Except String Bytes) (seed okm : Bytes) :
    Prop where
  long : minSeedBytes ≤ seed.length
  read : hkdf seed salt hkdfModRL = .ok okm
  full : okm.length = hkdfModRL

theorem Derives.masterSK (h : Derives hkdf seed okm) :
    deriveMasterSK hkdf seed = .ok (Endian.big okm % curveOrder) := by
  rw [deriveMasterSK, if_neg (Nat.not_lt.mpr h.long), hkdfModR, h.read]
  exact if_neg (not_not.mpr h.full)

theorem Derives.exists_passes (h : Derives hkdf seed okm) : ∃ key, Passes hkdf seed key ∧
    key.length = recommendedSeedLen ∧ Endian.little key = Endian.big okm % curveOrder := by
  have hlt : Endian.big okm % curveOrder < curveOrder := Nat.mod_lt _ (by decide +kernel)
  obtain ⟨be, key, hbe, hkey, hlen, hval⟩ := @encode_scalar Empty _ hlt
  refine ⟨key, fun blsKeys => ?_, hlen, hval⟩
  simp only [generateBLSKeysV2, h.masterSK, hbe, hkey, bind, Except.bind]

/-- A seed that is too short, or nil, brings an error and no key. -/
theorem generateBLSKeysV2_short (blsKeys : Bytes → Keys) {seed : Option Bytes}
    (h : ∀ s, seed = some s → s.length < minSeedBytes) :
    ∃ err, generateBLSKeysV2 hkdf blsKeys seed = .ok ⟨none, none, some err⟩ := by
  cases seed with
  | none => exact ⟨_, rfl⟩
  | some seed =>
    refine ⟨"DeriveMasterSK: " ++ errInvalidSeedLen, ?_⟩
    rw [generateBLSKeysV2, deriveMasterSK, if_pos (h seed rfl)]

end

/-- **The right scalar.** From a seed that is long enough, `BLSKeys` is handed the output of HKDF
modulo the order, in 32 bytes, little-endian; so different residues bring different strings. A seed
that is too short brings an error and no key. -/
theorem generateBLSKeysV2_scalar (hkdf : Bytes → Bytes → Nat → Except String Bytes) :
    (∀ seed okm, Derives hkdf seed okm → ∃ key, Passes hkdf seed key ∧
      key.length = 32 ∧ Endian.little key = Endian.big okm % curveOrder ∧
      Endian.little key < curveOrder) ∧
    (∀ seed seed' okm okm' key, Derives hkdf seed okm → Derives hkdf seed' okm' →
      Passes hkdf seed key → Passes hkdf seed' key →
      Endian.big okm % curveOrder = Endian.big okm' % curveOrder) ∧
    ∀ blsKeys seed, (∀ s, seed = some s → s.length < 16) →
      ∃ err, generateBLSKeysV2 hkdf blsKeys seed = .ok ⟨none, none, some err⟩ := by
  refine ⟨fun seed okm h => ?_, fun seed seed' okm okm' key h h' hkey hkey' => ?_,
    fun blsKeys seed hshort => generateBLSKeysV2_short blsKeys hshort⟩
  · obtain ⟨key, hpasses, hlen, hval⟩ := h.exists_passes
    exact ⟨key, hpasses, hlen, hval, hval ▸ Nat.mod_lt _ (by decide +kernel)⟩
  · obtain ⟨k, hpasses, -, hval⟩ := h.exists_passes
    obtain ⟨k', hpasses', -, hval'⟩ := h'.exists_passes
    rw [← hval, ← hval', hpasses.unique hkey, hpasses'.unique hkey']

/-- An output whose residue takes a single byte. -/
def sampleOkm : Bytes := List.replicate 47 0 ++ [5]

/-- It is handed over all the same in 32 bytes. -/
theorem generateBLSKeysV2_scalar_sample : ∃ key,
    Passes (fun _ _ _ => .ok sampleOkm) (List.replicate 16 1) key ∧ key.length = 32 ∧
      Endian.little key = 5 ∧ Endian.little key < curveOrder := by
  have hder : Derives (fun _ _ _ => .ok sampleOkm) (List.replicate 16 1) sampleOkm :=
    ⟨by decide, rfl, by decide⟩
  have hval : Endian.big sampleOkm % curveOrder = 5 := by decide +kernel
  rw [← hval]
  exact (generateBLSKeysV2_scalar fun _ _ _ => .ok sampleOkm).1 _ _ hder

end SigningAgent.Crypto
