import Mathlib
import BwsCoin.Serialize.Serialize
import BwsCoin.Policy.Dust
import BwsCoin.Primitives.Block

/-!
# The partial Merkle tree of a filtered block

`CPartialMerkleTree` (`src/merkleblock.h`, `src/merkleblock.cpp`) proves that some transactions
are in a block without sending the others: it walks the Merkle tree of the block's txids depth
first and stores one bit per node it visits, whether a matched txid lies below it. Below an
unmatched node, and at each leaf, it stores the node's hash and does not descend. The
constructor writes the bits and hashes (`TraverseAndBuild`, with `CalcHash` for the hashes);
`ExtractMatches` reads them back in the same order (`TraverseAndExtract`), recomputes the root
and collects the matched txids with their positions. Serialized, the bits are packed eight to a
byte, least significant first.

`TraverseAndExtract` does not stop at the first fault: it sets `fBad`, returns the null hash and
the walk goes on; `ExtractMatches` tests `fBad` at the end. The model keeps that order.

The double SHA-256 `Hash(left, right)` of two hashes is the parameter `hash`, as for
`MerkleComputation`. `nTransactions`, the positions and the counters are `unsigned int`s,
modelled by `Nat`: `CalcTreeWidth`'s sum is taken modulo `2 ^ 32`, which is where it can wrap;
the positions stay below `nTransactions`. The loop that finds the height of the tree stops by
height `31` for every `nTransactions < 2 ^ 32`, so it is run for at most `32` turns. An index
past the end of a `std::vector` (which the traversals never reach once `nTransactions` is the
number of txids) reads a default value.
-/

namespace BwsCoin.MerkleBlock

open Serialize ByteReader

/-- `MAX_BLOCK_WEIGHT`.
Source: `src/consensus/consensus.h` `MAX_BLOCK_WEIGHT`
Kind: D -/
def maxBlockWeight : Nat := 4000000

/-- `MIN_TRANSACTION_WEIGHT`: `WITNESS_SCALE_FACTOR * 60`.
Source: `src/consensus/consensus.h` `MIN_TRANSACTION_WEIGHT`
Kind: D -/
def minTransactionWeight : Nat := Policy.witnessScaleFactor * 60

/-- A partial Merkle tree: the number of transactions of the block, the bits of the visited
nodes, the stored hashes, and the flag of a fault met while reading them.
Source: `src/merkleblock.h` `CPartialMerkleTree`
Kind: D -/
structure CPartialMerkleTree where
  nTransactions : Nat
  vBits : List Bool
  vHash : List Uint256
  fBad : Bool
  deriving DecidableEq, Repr

namespace CPartialMerkleTree

/-- `CalcTreeWidth(height)`: the number of nodes at `height`, `(nTransactions + 2^height - 1)`
shifted right by `height`, the sum in `unsigned int`.
Source: `src/merkleblock.h` `CPartialMerkleTree::CalcTreeWidth`
Kind: D -/
def calcTreeWidth (nTransactions height : Nat) : Nat :=
  ((nTransactions + (1 <<< height) - 1) % 2 ^ 32) >>> height

/-- The loop `while (CalcTreeWidth(nHeight) > 1) nHeight++`, from `height`, for `fuel` turns.
Source: `src/merkleblock.cpp` `CPartialMerkleTree::CPartialMerkleTree`,
`CPartialMerkleTree::ExtractMatches` (the loop that calculates the height of the tree)
Kind: D -/
def treeHeightLoop (nTransactions : Nat) : Nat → Nat → Nat
  | 0, height => height
  | fuel + 1, height =>
    if calcTreeWidth nTransactions height > 1 then treeHeightLoop nTransactions fuel (height + 1)
    else height

/-- The height of the tree: the first height with at most one node.
Source: `src/merkleblock.cpp` `CPartialMerkleTree::CPartialMerkleTree`,
`CPartialMerkleTree::ExtractMatches` (`int nHeight = 0; while (...) nHeight++;`)
Kind: D -/
def treeHeight (nTransactions : Nat) : Nat := treeHeightLoop nTransactions 32 0

variable (hash : Uint256 → Uint256 → Uint256)

/-- `CalcHash(height, pos, vTxid)`: the hash of the node at `pos` of level `height`, the txid at
level `0`, and above it `Hash(left, right)` with `right = left` past the end of the level. It
asserts that there is a txid.
Source: `src/merkleblock.cpp` `CPartialMerkleTree::CalcHash`
Kind: D -/
def calcHash (nTransactions : Nat) : Nat → Nat → List Uint256 → Except Fault Uint256
  | height, pos, vTxid =>
    if vTxid.length = 0 then .error (.abort "vTxid.size() != 0")
    else
      match height with
      | 0 => .ok (vTxid.getD pos Uint256.zero)
      | height + 1 => do
        let left ← calcHash nTransactions height (pos * 2) vTxid
        let right ← if pos * 2 + 1 < calcTreeWidth nTransactions height then
            calcHash nTransactions height (pos * 2 + 1) vTxid
          else pure left
        pure (hash left right)

/-- Whether the node at `pos` of level `height` is the parent of a matched txid: the loop over
`p` from `pos << height` while below `(pos + 1) << height` and `nTransactions`.
Source: `src/merkleblock.cpp` `CPartialMerkleTree::TraverseAndBuild` (`fParentOfMatch`)
Kind: D -/
def parentOfMatch (nTransactions : Nat) (vMatch : List Bool) (height pos : Nat) : Bool :=
  (List.range' (pos <<< height) (min ((pos + 1) <<< height) nTransactions - pos <<< height)).any
    fun p => vMatch.getD p false

/-- `TraverseAndBuild(height, pos, vTxid, vMatch)`: push the node's bit; at a leaf or an unmatched
node push its hash, else descend into the left child and, when there is one, the right child.
Source: `src/merkleblock.cpp` `CPartialMerkleTree::TraverseAndBuild`
Kind: D -/
def traverseAndBuild (vTxid : List Uint256) (vMatch : List Bool) :
    Nat → Nat → CPartialMerkleTree → Except Fault CPartialMerkleTree
  | height, pos, t =>
    let fParentOfMatch := parentOfMatch t.nTransactions vMatch height pos
    let t := { t with vBits := t.vBits ++ [fParentOfMatch] }
    match height, fParentOfMatch with
    | height + 1, true => do
      let t ← traverseAndBuild vTxid vMatch height (pos * 2) t
      if pos * 2 + 1 < calcTreeWidth t.nTransactions height then
        traverseAndBuild vTxid vMatch height (pos * 2 + 1) t
      else pure t
    | _, _ => do
      let h ← calcHash hash t.nTransactions height pos vTxid
      pure { t with vHash := t.vHash ++ [h] }

/-- `CPartialMerkleTree(vTxid, vMatch)`: `nTransactions` from the number of txids, then the
traversal from the root.
Source: `src/merkleblock.cpp` `CPartialMerkleTree::CPartialMerkleTree(const std::vector<uint256>&,
const std::vector<bool>&)`
Kind: D -/
def build (vTxid : List Uint256) (vMatch : List Bool) : Except Fault CPartialMerkleTree :=
  let t : CPartialMerkleTree := ⟨vTxid.length % 2 ^ 32, [], [], false⟩
  traverseAndBuild hash vTxid vMatch (treeHeight t.nTransactions) 0 t

/-- The locals of `ExtractMatches` that `TraverseAndExtract` updates through references, with
its out-parameters and the tree's `fBad`.
Source: `src/merkleblock.cpp` `CPartialMerkleTree::ExtractMatches` (`nBitsUsed`, `nHashUsed`,
`vMatch`, `vnIndex`, `fBad`)
Kind: D -/
structure ExtractState where
  nBitsUsed : Nat
  nHashUsed : Nat
  vMatch : List Uint256
  vnIndex : List Nat
  fBad : Bool
  deriving DecidableEq, Repr

/-- `TraverseAndExtract(height, pos, ...)`: take the node's bit (a fault past the last bit); at
a leaf or an unmatched node take the next stored hash (a fault past the last hash), recording a
matched leaf; else combine the hashes of the children, a fault when the right one equals the
left one. A fault returns the null hash and the traversal goes on.
Source: `src/merkleblock.cpp` `CPartialMerkleTree::TraverseAndExtract`
Kind: D -/
def traverseAndExtract (t : CPartialMerkleTree) :
    Nat → Nat → ExtractState → Uint256 × ExtractState
  | height, pos, s =>
    if s.nBitsUsed ≥ t.vBits.length then (Uint256.zero, { s with fBad := true })
    else
      let fParentOfMatch := t.vBits.getD s.nBitsUsed false
      let s := { s with nBitsUsed := s.nBitsUsed + 1 }
      match height, fParentOfMatch with
      | height + 1, true =>
        let left := traverseAndExtract t height (pos * 2) s
        if pos * 2 + 1 < calcTreeWidth t.nTransactions height then
          let right := traverseAndExtract t height (pos * 2 + 1) left.2
          (hash left.1 right.1,
            if right.1 = left.1 then { right.2 with fBad := true } else right.2)
        else (hash left.1 left.1, left.2)
      | _, _ =>
        if s.nHashUsed ≥ t.vHash.length then (Uint256.zero, { s with fBad := true })
        else
          let h := t.vHash.getD s.nHashUsed Uint256.zero
          let s := { s with nHashUsed := s.nHashUsed + 1 }
          (h, if height = 0 ∧ fParentOfMatch = true then
              { s with vMatch := s.vMatch ++ [h], vnIndex := s.vnIndex ++ [pos] }
            else s)

/-- `ExtractMatches(vMatch, vnIndex)`: clear `vMatch` (`vnIndex` is appended to as it is); return
the null hash for no transactions, for more than `MAX_BLOCK_WEIGHT / MIN_TRANSACTION_WEIGHT`,
for more hashes than transactions or fewer bits than hashes; else traverse from the root, and
return the root unless a fault was met, a byte of bits was left unread or a hash was.
Source: `src/merkleblock.cpp` `CPartialMerkleTree::ExtractMatches`
Kind: D -/
def extractMatches (t : CPartialMerkleTree) (vnIndex : List Nat) : Uint256 × ExtractState :=
  let s : ExtractState := ⟨0, 0, [], vnIndex, t.fBad⟩
  if t.nTransactions = 0 then (Uint256.zero, s)
  else if t.nTransactions > maxBlockWeight / minTransactionWeight then (Uint256.zero, s)
  else if t.vHash.length > t.nTransactions then (Uint256.zero, s)
  else if t.vBits.length < t.vHash.length then (Uint256.zero, s)
  else
    let r := traverseAndExtract hash t (treeHeight t.nTransactions) 0 s
    if r.2.fBad then (Uint256.zero, r.2)
    else if (r.2.nBitsUsed + 7) / 8 ≠ (t.vBits.length + 7) / 8 then (Uint256.zero, r.2)
    else if r.2.nHashUsed ≠ t.vHash.length then (Uint256.zero, r.2)
    else r

/-! ## Serialization -/

/-- One turn of the packing loop: `vBytes[p / 8] |= vBits[p] << (p % 8)`.
Source: `src/merkleblock.h` `CPartialMerkleTree::SerializationOp` (the body of the write loop)
Kind: D -/
def packBit (vBits : List Bool) (vBytes : List UInt8) (p : Nat) : List UInt8 :=
  vBytes.modify (p / 8) fun b => b ||| ((vBits.getD p false).toUInt8 <<< (p % 8).toUInt8)

/-- The bits packed into bytes: `(size + 7) / 8` zero bytes, then one turn for each bit.
Source: `src/merkleblock.h` `CPartialMerkleTree::SerializationOp` (the write branch)
Kind: D -/
def packBits (vBits : List Bool) : List UInt8 :=
  (List.range vBits.length).foldl (packBit vBits) (List.replicate ((vBits.length + 7) / 8) 0)

/-- The bytes unpacked: `vBits` resized to eight bits a byte, with `vBits[p] = (vBytes[p / 8] &
(1 << (p % 8))) != 0`.
Source: `src/merkleblock.h` `CPartialMerkleTree::SerializationOp` (the read branch)
Kind: D -/
def unpackBits (vBytes : List UInt8) : List Bool :=
  (List.range (vBytes.length * 8)).map fun p =>
    vBytes.getD (p / 8) 0 &&& (1 <<< (p % 8).toUInt8) != 0

/-- `Serialize`: `nTransactions` as a `uint32`, the hashes as a vector, the packed bits as a
vector of bytes.
Source: `src/merkleblock.h` `CPartialMerkleTree::SerializationOp`
Kind: D -/
def serialize (t : CPartialMerkleTree) : List UInt8 :=
  serWritedata32 t.nTransactions.toUInt32 ++ serializeVector serializeUint256 t.vHash ++
    serializeBytes (packBits t.vBits)

/-- `Unserialize`: the three fields in order, the bits unpacked, and `fBad` cleared.
Source: `src/merkleblock.h` `CPartialMerkleTree::SerializationOp`
Kind: D -/
def unserialize : Reader CPartialMerkleTree := do
  let nTransactions ← serReaddata32
  let vHash ← unserializeVector unserializeUint256
  let vBytes ← unserializeBytes
  pure ⟨nTransactions.toNat, unpackBits vBytes, vHash, false⟩

end CPartialMerkleTree

/-! ## The filtered block -/

open Primitives

/-- A filtered block: the header, the partial Merkle tree of the block's transactions, and the
transactions matched other than by their txid, with their positions.
Source: `src/merkleblock.h` `CMerkleBlock`
Kind: D -/
structure CMerkleBlock where
  header : CBlockHeader
  txn : CPartialMerkleTree
  vMatchedTxn : List (Nat × Uint256)

/-- The vectors the constructor of `CMerkleBlock` fills: the match flags, the txids and
`vMatchedTxn`.
Source: `src/merkleblock.cpp` `CMerkleBlock::CMerkleBlock` (`vMatch`, `vHashes`, `vMatchedTxn`)
Kind: D -/
structure MatchState where
  vMatch : List Bool
  vHashes : List Uint256
  vMatchedTxn : List (Nat × Uint256)
  deriving DecidableEq, Repr

namespace CMerkleBlock

/-- One turn of the constructor's loop, for the transaction at `i`, with no bloom filter: a
transaction whose hash is in `txids` is matched; any other is matched, and recorded in
`vMatchedTxn`, when `IsStakeTx` says it is a stake transaction (which may throw).
Source: `src/merkleblock.cpp` `CMerkleBlock::CMerkleBlock` (the body of the loop)
Kind: D -/
def matchTx (getHash : CTransaction → Uint256) (txids : List Uint256) (s : MatchState) (i : Nat)
    (tx : CTransaction) : Except Fault MatchState :=
  let hash := getHash tx
  if txids.contains hash then .ok ⟨s.vMatch ++ [true], s.vHashes ++ [hash], s.vMatchedTxn⟩
  else do
    let fStake ← Stake.isStakeTx tx.outputs
    if fStake then .ok ⟨s.vMatch ++ [true], s.vHashes ++ [hash], s.vMatchedTxn ++ [(i, hash)]⟩
    else .ok ⟨s.vMatch ++ [false], s.vHashes ++ [hash], s.vMatchedTxn⟩

/-- `CMerkleBlock(block, txids)`: the header, then the flags and txids of the transactions in
order, and the partial Merkle tree they give.
Source: `src/merkleblock.cpp` `CMerkleBlock::CMerkleBlock(const CBlock&, CBloomFilter*,
const std::set<uint256>*)` (with `filter` null), `src/merkleblock.h`
`CMerkleBlock(const CBlock&, const std::set<uint256>&)`
Kind: D -/
def ofTxids (hash : Uint256 → Uint256 → Uint256) (getHash : CTransaction → Uint256)
    (header : CBlockHeader) (vtx : List CTransaction) (txids : List Uint256) :
    Except Fault CMerkleBlock := do
  let s ← vtx.zipIdx.foldlM (fun s p => matchTx getHash txids s p.2 p.1) ⟨[], [], []⟩
  let txn ← CPartialMerkleTree.build hash s.vHashes s.vMatch
  pure ⟨header, txn, s.vMatchedTxn⟩

end CMerkleBlock

end BwsCoin.MerkleBlock
