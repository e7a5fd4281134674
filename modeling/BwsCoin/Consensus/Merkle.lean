import Mathlib
import BwsCoin.Basic
import BwsCoin.Primitives.Transaction

/-!
# The Merkle root of a block

`MerkleComputation` (`src/consensus/merkle.cpp`) computes the root of the Merkle tree of a list
of leaves in constant space, with the mutation flag of CVE-2012-2459 and, on request, the branch
of one leaf. It counts the leaves in a `uint32_t count` and keeps in `uint256 inner[32]` the
last complete node of each level whose bit is set in `count`. Each leaf is carried up over the
low zero bits of the new `count`, combined with the `inner` value of each level it passes; a
final sweep pairs the odd last node of each level with itself until one node is left.
`ComputeMerkleRoot`, `ComputeMerkleBranch`, `ComputeMerkleRootFromBranch` and `BlockMerkleRoot`
are its entry points, and `CheckBlock` (`src/validation.cpp`) compares the root with the header's
and rejects a mutated tree.

The double SHA-256 of the 64 bytes of two hashes, `CSha256D().Write(a).Write(b)` and
`Hash(a, b)`, is a parameter `hash a b`; so is the transaction hash `GetHash`.

`count` is modelled by a `Nat` and each loop over `level` by a recursion on `fuel`, with the `32`
levels of a `uint32_t` as fuel. Up to `2 ^ 31` leaves this is exact: the largest value `count`
then reaches, in the final sweep, is `2 ^ 31`, and no loop goes past level `31`. With more leaves
the source's `count` reaches `2 ^ 32` in the sweep and wraps. `ReadCompactSize` bounds the number
of transactions of a deserialized block by `MAX_SIZE = 2 ^ 25`.
-/

namespace BwsCoin.Consensus

open Primitives

/-- The locals of `MerkleComputation` that live across leaves: the number of leaves processed,
the `inner` array (zero-initialised, as `uint256()` is), the level of `inner` whose hash depends
on the leaf at `branchpos`, the mutation flag and the branch collected so far.
Source: `src/consensus/merkle.cpp` `MerkleComputation` (`count`, `inner`, `matchlevel`,
`mutated`, `*pbranch`)
Kind: D -/
structure MerkleState where
  count : Nat
  inner : Nat → Uint256
  matchlevel : Int
  mutated : Bool
  branch : List Uint256

/-- The state before the first leaf.
Source: `src/consensus/merkle.cpp` `MerkleComputation` (the initialisations)
Kind: D -/
def MerkleState.init : MerkleState := ⟨0, fun _ => Uint256.zero, -1, false, []⟩

/-- Where a carry loop stops: its `level`, the hash `h` carried up to it, `matchh`, and the state.
Source: `src/consensus/merkle.cpp` `MerkleComputation` (`level`, `h`, `matchh`)
Kind: D -/
structure MerkleCarry where
  level : Nat
  h : Uint256
  matchh : Bool
  state : MerkleState

/-- The `pbranch` bookkeeping of one carry step at `level`, when a branch is collected: the sibling
of the node on the path of the leaf is pushed — `inner[level]` when the carried hash `h` is on the
path, `h` when `inner[level]` is (and `h` is then on the path too).
Source: `src/consensus/merkle.cpp` `MerkleComputation` (`if (pbranch) { ... }` of both carry loops)
Kind: D -/
def branchStep (collect : Bool) (level : Nat) (h : Uint256) (matchh : Bool) (s : MerkleState) :
    Bool × List Uint256 :=
  if collect then
    if matchh then (true, s.branch ++ [s.inner level])
    else if s.matchlevel = level then (true, s.branch ++ [h])
    else (false, s.branch)
  else (matchh, s.branch)

variable (hash : Uint256 → Uint256 → Uint256)

/-- The carry loop from `level`: while bit `level` of `count` is clear, combine `inner[level]` with
the carried hash and go one level up. In the loop over the leaves (`detect`) an `inner[level]`
equal to the carried hash sets `mutated`; the inner loop of the final sweep does not test it.
Source: `src/consensus/merkle.cpp` `MerkleComputation` (the `for` over `level` of the first loop,
the inner `while` of the sweep)
Kind: D -/
def merkleCarry (collect detect : Bool) (count : Nat) :
    Nat → Nat → Uint256 → Bool → MerkleState → MerkleCarry
  | 0, level, h, matchh, s => ⟨level, h, matchh, s⟩
  | fuel + 1, level, h, matchh, s =>
    if count &&& (1 <<< level) ≠ 0 then ⟨level, h, matchh, s⟩
    else
      let b := branchStep collect level h matchh s
      merkleCarry collect detect count fuel (level + 1) (hash (s.inner level) h) b.1
        { s with mutated := s.mutated || (detect && s.inner level == h), branch := b.2 }

/-- One leaf of the first loop: `count` goes up by one, the leaf is carried up over the low zero
bits of the new `count` and stored in `inner` at the level where the carry stops.
Source: `src/consensus/merkle.cpp` `MerkleComputation` (the body of `while (count < leaves.size())`)
Kind: D -/
def merkleLeaf (collect : Bool) (branchpos : Nat) (s : MerkleState) (leaf : Uint256) :
    MerkleState :=
  let r := merkleCarry hash collect true (s.count + 1) 32 0 leaf (s.count == branchpos)
    { s with count := s.count + 1 }
  { r.state with
    inner := Function.update r.state.inner r.level r.h
    matchlevel := if r.matchh then r.level else r.state.matchlevel }

/-- `while (!(count & (1 << level))) level++`: the lowest set bit of `count` from `level` on.
Source: `src/consensus/merkle.cpp` `MerkleComputation` (the first loop of the sweep)
Kind: D -/
def lowestSetLevel (count : Nat) : Nat → Nat → Nat
  | 0, level => level
  | fuel + 1, level =>
    if count &&& (1 <<< level) ≠ 0 then level else lowestSetLevel count fuel (level + 1)

/-- The final sweep from `level`: while `count` is not `2 ^ level`, the carried hash is an odd last
node; it is combined with itself, `count` grows by `2 ^ level` as if the pair had existed, and the
result is carried up.
Source: `src/consensus/merkle.cpp` `MerkleComputation` (`while (count != (((uint32_t)1) << level))`)
Kind: D -/
def merkleSweep (collect : Bool) : Nat → Nat → Uint256 → Bool → MerkleState → Uint256 × MerkleState
  | 0, _, h, _, s => (h, s)
  | fuel + 1, level, h, matchh, s =>
    if s.count = 1 <<< level then (h, s)
    else
      let branch := if collect && matchh then s.branch ++ [h] else s.branch
      let r := merkleCarry hash collect false (s.count + (1 <<< level)) 32 (level + 1) (hash h h)
        matchh { s with count := s.count + (1 <<< level), branch }
      merkleSweep collect fuel r.level r.h r.matchh r.state

/-- `MerkleComputation(leaves, proot, pmutated, branchpos, pbranch)`: the root, `mutated`, and the
branch of the leaf at `branchpos`, collected when `pbranch` is not null (`collect`).
Source: `src/consensus/merkle.cpp` `MerkleComputation`
Kind: D
Fidelity: exact for at most `2 ^ 31` leaves -/
def merkleComputation (leaves : List Uint256) (branchpos : Nat) (collect : Bool) :
    Uint256 × Bool × List Uint256 :=
  if leaves.length = 0 then (Uint256.zero, false, [])
  else
    let s := leaves.foldl (merkleLeaf hash collect branchpos) MerkleState.init
    let level := lowestSetLevel s.count 32 0
    let r := merkleSweep hash collect 32 level (s.inner level) (decide (s.matchlevel = level)) s
    (r.1, r.2.mutated, r.2.branch)

/-- `ComputeMerkleRoot(leaves, mutated)`: the root and the mutation flag; `branchpos` is the
`uint32_t` value of `-1`.
Source: `src/consensus/merkle.cpp` `ComputeMerkleRoot`
Kind: D -/
def computeMerkleRoot (leaves : List Uint256) : Uint256 × Bool :=
  let r := merkleComputation hash leaves (2 ^ 32 - 1) false
  (r.1, r.2.1)

/-- `ComputeMerkleBranch(leaves, position)`.
Source: `src/consensus/merkle.cpp` `ComputeMerkleBranch`
Kind: D -/
def computeMerkleBranch (leaves : List Uint256) (position : Nat) : List Uint256 :=
  (merkleComputation hash leaves position true).2.2

/-- `ComputeMerkleRootFromBranch(leaf, vMerkleBranch, nIndex)`: the branch hashed onto the leaf,
on the left where the bit of `nIndex` is set.
Source: `src/consensus/merkle.cpp` `ComputeMerkleRootFromBranch`
Kind: D -/
def computeMerkleRootFromBranch (leaf : Uint256) : List Uint256 → Nat → Uint256
  | [], _ => leaf
  | it :: vMerkleBranch, nIndex =>
    computeMerkleRootFromBranch
      (if nIndex &&& 1 ≠ 0 then hash it leaf else hash leaf it) vMerkleBranch (nIndex >>> 1)

/-- `BlockMerkleRoot(block, mutated)`: the tree of the transaction hashes.
Source: `src/consensus/merkle.cpp` `BlockMerkleRoot`
Kind: D -/
def blockMerkleRoot (getHash : CTransaction → Uint256) (vtx : List CTransaction) : Uint256 × Bool :=
  computeMerkleRoot hash (vtx.map getHash)

/-- The Merkle check of `CheckBlock`: the root must be the header's `hashMerkleRoot`, and the tree
must not be mutated.
Source: `src/validation.cpp` `CheckBlock` (`if (fCheckMerkleRoot)`)
Kind: D -/
def checkBlockMerkleRoot (getHash : CTransaction → Uint256) (hashMerkleRoot : Uint256)
    (vtx : List CTransaction) : Except String Unit :=
  let r := blockMerkleRoot hash getHash vtx
  if hashMerkleRoot ≠ r.1 then .error "bad-txnmrklroot"
  else if r.2 then .error "bad-txns-duplicate"
  else .ok ()

end BwsCoin.Consensus
