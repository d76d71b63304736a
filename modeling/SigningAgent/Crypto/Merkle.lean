import SigningAgent.Crypto.Hash
import Mathlib.Algebra.Order.Group.Nat

/-!
# The Merkle tree as the code computes it (`crypto/merkle.go`)

`buildMerkleTreeStore`, `generateProofFromTree`, `copyProof` and `verify` are the four functions
of the file, statement by statement. The conventions:

* A tree entry is a `*[]byte`: `none` is nil, and `some r` points to the slice `r.val` allocated at
  `r.addr`. The prover compares pointers, so the address matters there. Every entry the builder
  stores is a fresh allocation, which the model names by the slot it is stored in.
* An asset is a `[]byte` that may be nil (`none`); a nil slice reads as the empty one.
* `floorLog2 m` is `int(math.Log2(float64(m)))`, taken to be exact.
* Errors carry what their text formats; a slice index out of range is a panic (`Go.lean`).
-/

namespace SigningAgent.Crypto

/-- The errors of `merkle.go`. -/
inductive MerkleError where
  /-- "Cannot build tree from empty array." -/
  | emptyArray
  /-- "Invalid leaf. Input must be a non-empty byte slice." -/
  | invalidLeaf
  /-- "Input Merkle tree must be non-empty hash array." -/
  | emptyTree
  /-- "Mismatch. Invalid Merkle tree for asset argument." -/
  | mismatch
  /-- "invalid input: %v .Contains nil pointers" -/
  | nilPointer (i : Nat)
  /-- "Root hash in proof doesn't match first argument: expected %+v but got %+v" -/
  | rootMismatch (root last : Bytes)
  /-- "Incorrect Hash preimage..\n Expected %+v \n but got %+v", both in hexadecimal -/
  | wrongPreimage (root test : Bytes)
  /-- "Merkle proof failed (invalid path).\n Expected %+v \n but got %+v", both in hexadecimal -/
  | invalidPath (root res : Bytes)
  deriving DecidableEq, Repr

/-- What a non-nil `*[]byte` points to. -/
structure Ref where
  addr : Nat
  val : Bytes
  deriving DecidableEq, Repr

/-- A `*[]byte`. -/
abbrev Ptr := Option Ref

/-- `p == q` for pointers: the same address, or both nil. -/
def samePtr (p q : Ptr) : Bool := p.map Ref.addr == q.map Ref.addr

/-! ## Building -/

/-- `int(math.Log2(float64(m)))`. -/
def floorLog2 (m : Nat) : Nat := Nat.log2 m

/-- `nextPowerOfTwo`. -/
def nextPowerOfTwo (n : Nat) : Nat :=
  if n &&& (n - 1) = 0 then n else 1 <<< (floorLog2 n + 1)

/-- `copy(hash[:HashSize], b)` into a zeroed array: cut at 32 bytes, or padded with zeros. -/
def copy32 (b : Bytes) : Bytes := b.take hashSize ++ List.replicate (hashSize - b.length) 0

/-- `HashMerkleBranchesB`. -/
def hashMerkleBranchesB (sum256 : Bytes → Digest) (left right : Bytes) : Bytes :=
  doubleHashB sum256 (copy32 left ++ copy32 right)

section
variable (sum256 : Bytes → Digest)

/-- The loop `for i, tx := range assets`: the leaf hashes, or the error of the first nil asset. -/
def storeLeaves : List (Option Bytes) → Nat → List Ptr → Outcome MerkleError (List Ptr)
  | [], _, merkles => .ok merkles
  | none :: _, _, _ => .error (.error .invalidLeaf)
  | some tx :: assets, i, merkles => do
    let merkles ← setAt merkles i (some ⟨i, hashB sum256 tx⟩)
    storeLeaves assets (i + 1) merkles

/-- The body of the second loop: the parent of slots `i` and `i + 1` goes to slot `offset`. -/
def storeBranch (merkles : List Ptr) (i offset : Nat) : Outcome MerkleError (List Ptr) := do
  match ← index merkles i with
  | none => setAt merkles offset none
  | some left =>
    match ← index merkles (i + 1 : Nat) with
    | none =>
      setAt merkles offset (some ⟨offset, hashMerkleBranchesB sum256 left.val left.val⟩)
    | some right =>
      setAt merkles offset (some ⟨offset, hashMerkleBranchesB sum256 left.val right.val⟩)

/-- The second loop, `rounds` times: `i` grows by two and `offset` by one. -/
def storeBranches : (rounds : Nat) → (i offset : Nat) → List Ptr →
    Outcome MerkleError (List Ptr)
  | 0, _, _, merkles => .ok merkles
  | rounds + 1, i, offset, merkles => do
    let merkles ← storeBranch sum256 merkles i offset
    storeBranches rounds (i + 2) (offset + 1) merkles

/-- `BuildMerkleTreeStore`. The second loop runs for `i = 0, 2, …` below `arraySize - 1`, which is
`arraySize / 2` rounds. -/
def buildMerkleTreeStore (assets : List (Option Bytes)) : Outcome MerkleError (List Ptr) :=
  match assets with
  | [] => .error (.error .emptyArray)
  | [asset] =>
    let tx := asset.getD []
    .ok [some ⟨0, tx⟩, some ⟨1, hashB sum256 tx⟩]
  | _ => do
    let nextPoT := nextPowerOfTwo assets.length
    let arraySize := nextPoT * 2 - 1
    let merkles ← storeLeaves sum256 assets 0 (List.replicate arraySize none)
    storeBranches sum256 (arraySize / 2) 0 nextPoT merkles

end

/-! ## Proving -/

/-- `leftByte` and `rightByte`. -/
def leftByte : Bytes := [0]
def rightByte : Bytes := [1]

/-- The switch in the loop of `GenerateProofFromTree`, at level offset `c` and position `pos` in
the level: append the direction and the sibling. -/
def proofRound (tree : List Ptr) (c pos : Int) (proof : List Ptr) :
    Outcome MerkleError (List Ptr) :=
  if pos.tmod 2 = 0 then do
    match ← index tree (pos + 1 + c) with
    -- no right neighbour: the node stands in for its own sibling
    | none => do
      let self ← index tree (pos + c)
      pure (proof ++ [some ⟨tree.length + 1, rightByte⟩, self])
    | some next => pure (proof ++ [some ⟨tree.length + 1, rightByte⟩, some next])
  else if pos.tmod 2 = 1 then do
    let prev ← index tree (pos - 1 + c)
    pure (proof ++ [some ⟨tree.length, leftByte⟩, prev])
  else pure proof

/-- The loop of `GenerateProofFromTree`, `rounds` times. Returns the proof and the final
`pos + c`. -/
def proofLoop (tree : List Ptr) : (rounds : Nat) → (c pos leafLength : Int) → List Ptr →
    Outcome MerkleError (List Ptr × Int)
  | 0, c, pos, _, proof => .ok (proof, pos + c)
  | rounds + 1, c, pos, leafLength, proof => do
    let proof ← proofRound tree c pos proof
    proofLoop tree rounds (c + leafLength) (pos.tdiv 2) (leafLength.tdiv 2) proof

/-- `GenerateProofFromTree`. -/
def generateProofFromTree (asset : Ptr) (pos : Int) (tree : List Ptr) :
    Outcome MerkleError (List Ptr) :=
  if tree.length < 2 then .error (.error .emptyTree)
  else do
    let leaf ← index tree pos
    if !samePtr asset leaf then .error (.error .mismatch)
    else if tree.length = 2 then do
      let first ← index tree 0
      let last ← index tree 1
      pure [first, last]
    else do
      let leafLength := (tree.length + 1) / 2
      let nPoT := nextPowerOfTwo tree.length
      let treeHeight := floorLog2 nPoT
      let (proof, top) ← proofLoop tree (treeHeight - 1) 0 pos leafLength [leaf]
      let root ← index tree top
      pure (proof ++ [root])

/-- `CopyProof`, from entry `i` on. -/
def copyProofFrom : (i : Nat) → List Ptr → Outcome MerkleError (List Bytes)
  | _, [] => .ok []
  | i, none :: _ => .error (.error (.nilPointer i))
  | i, some item :: proof => do
    let rest ← copyProofFrom (i + 1) proof
    pure (item.val :: rest)

/-- `CopyProof`. -/
def copyProof (proof : List Ptr) : Outcome MerkleError (List Bytes) := copyProofFrom 0 proof

/-! ## Verifying -/

section
variable (sum256 : Bytes → Digest)

/-- The loop of `Verify`: rounds `i = 0, …, rounds - 1`, here over the entries from `2i + 1` on.
An entry that is neither direction leaves `res` as it is. -/
def verifyLoop : (rounds : Nat) → (args : List Bytes) → (res : Bytes) → Outcome MerkleError Bytes
  | 0, _, res => .ok res
  | rounds + 1, dir :: sib :: args, res =>
    if dir = leftByte then verifyLoop rounds args (hashMerkleBranchesB sum256 sib res)
    else if dir = rightByte then verifyLoop rounds args (hashMerkleBranchesB sum256 res sib)
    else verifyLoop rounds args res
  | _ + 1, _, _ => .error .panic

/-- `Verify`. -/
def verify (root : Bytes) (args : List Bytes) : Outcome MerkleError Unit := do
  let last ← index args ((args.length : Int) - 1)
  if root ≠ last then .error (.error (.rootMismatch root last))
  else if args.length = 2 then do
    let preimage ← index args 0
    let test := hashB sum256 preimage
    if test = root then pure () else .error (.error (.wrongPreimage root test))
  else do
    let leaf ← index args 0
    let res ← verifyLoop sum256 (args.length / 2 - 1) (args.drop 1) leaf
    if res ≠ root then .error (.error (.invalidPath root res)) else pure ()

end

end SigningAgent.Crypto
