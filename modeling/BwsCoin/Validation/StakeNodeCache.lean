import BwsCoin.Stake.StakeNode
import BwsCoin.Lib.RootedChain

/-!
# The stake nodes cached in the block index

Every `CBlockIndex` holds the stake node of its block in `pstakeNode`, null until something
builds it. `FetchStakeNode` (`src/validation.cpp`) returns that node, and builds it when it is
missing:

* from the parent's node by `ConnectNode`, when the parent's node is loaded;
* otherwise by a walk from the active tip down to the block's fork point with the active chain,
  meant to rebuild each missing node on the way by `DisconnectNode` from its child, and then a
  walk up the block's own branch that rebuilds each missing node by `ConnectNode`.

A block index entry is a `RootedChain` of the fields `FetchStakeNode` reads, so that its height
and its `pprev` links are consistent by construction. The `pstakeNode` fields of all entries are
one function from entries to optional nodes, `StakeNodeCache`, which the model threads through
the walks; `none` is a null pointer, and a dereference of one is the fault `nullDeref`.
-/

namespace BwsCoin.Stake

open Consensus

/-- The fields of a `CBlockIndex` that `FetchStakeNode` reads besides its links: the lottery IV
and the stake data of the block.
Source: `src/chain.h` `CBlockIndex` (`LotteryIV()`, `ticketsVoted`, `ticketsRevoked`,
`newTickets`), `src/validation.cpp` `MaybeFetchTicketInfo`
Kind: D
Fidelity: abstracted: the votes, revocations and maturing tickets are the entry's fields, as
`MaybeFetchTicketInfo` reads them from the block files; its assertions on a missing ancestor and a
failed read are not modelled -/
structure StakeFields where
  /-- `LotteryIV()`, the hash of the block's header. -/
  lotteryIV : Uint256
  /-- `ticketsVoted`. -/
  ticketsVoted : List Uint256
  /-- `ticketsRevoked`. -/
  ticketsRevoked : List Uint256
  /-- `*newTickets`, the tickets that mature in the block. -/
  newTickets : List Uint256
  deriving DecidableEq, Repr

/-- A block index entry with its `pprev` links back to the genesis entry.
Source: `src/chain.h` `CBlockIndex` (`pprev`, `nHeight`)
Kind: D
Fidelity: exact on well-formed indexes; two entries are the same block when they are equal, as two
index pointers are when they point to one block -/
abbrev StakeBlockIndex := RootedChain StakeFields

/-- The `pstakeNode` fields of all entries of the block index; `none` is a null pointer.
Source: `src/chain.h` `CBlockIndex::pstakeNode`
Kind: D -/
abbrev StakeNodeCache := StakeBlockIndex → Option StakeNode

/-- The dereference of a pointer: a null one faults.
Source: none: infrastructure (C++ `->` on a pointer)
Kind: D -/
def deref {α : Type} : Option α → Except Fault α
  | some a => .ok a
  | none => .error .nullDeref

/-! ## The active chain -/

/-- `chainActive.Contains(pindex)`, for the active chain with tip `tip`:
`chainActive[pindex->nHeight] == pindex`.
Source: `src/chain.h` `CChain::Contains`
Kind: D -/
def chainContains (tip pindex : StakeBlockIndex) : Bool :=
  decide (tip.ancestorAt pindex.height = some pindex)

/-- The loop `while (pindex && !Contains(pindex)) pindex = pindex->pprev` of `FindFork`.
Source: `src/chain.cpp` `CChain::FindFork`
Kind: D -/
def findForkLoop (tip : StakeBlockIndex) : StakeBlockIndex → Option StakeBlockIndex
  | .root a => if chainContains tip (.root a) then some (.root a) else none
  | .cons prev a => if chainContains tip (.cons prev a) then some (.cons prev a)
    else findForkLoop tip prev

/-- `chainActive.FindFork(pindex)`: `pindex`, first lowered to the chain's height, then walked
down to the first entry the active chain contains; null when there is none.
Source: `src/chain.cpp` `CChain::FindFork`
Kind: D
Fidelity: exact; `GetAncestor(Height())` is never null here, as `Height()` is below `nHeight` -/
def findFork (tip pindex : StakeBlockIndex) : Option StakeBlockIndex :=
  let pindex :=
    if pindex.height > tip.height then pindex.walkBack (pindex.height - tip.height) else pindex
  findForkLoop tip pindex

/-! ## `FetchStakeNode` -/

/-- `it->pprev->pstakeNode->ConnectNode(it->LotteryIV(), it->ticketsVoted, it->ticketsRevoked,
*it->newTickets)`: the node of block `it` connected from its parent's node.
Source: `src/validation.cpp` `FetchStakeNode`
Kind: D -/
def connectBlockStake (p : Params) (cr : Crypto) (fuel : Nat) (it : StakeBlockIndex)
    (parentNode : StakeNode) : Except Fault (Option StakeNode) :=
  parentNode.connectNode p cr fuel it.data.lotteryIV it.data.ticketsVoted it.data.ticketsRevoked
    it.data.newTickets

/-- The walk `for (it = tip; it != nullptr && it != fork; it = it->pprev)`: a loaded parent is
skipped, and a missing one is to be rebuilt by `DisconnectNode` from its child, with the
parent's lottery IV and the undo data and new tickets of the parent's own node.
Source: `src/validation.cpp` `FetchStakeNode` (the first loop)
Kind: D
Fidelity: exact; the arguments `prev->pstakeNode->UndoData()` and `prev->pstakeNode->NewTickets()`
dereference the parent's node, which is null on this branch -/
def disconnectWalk (p : Params) (cr : Crypto) (fuel : Nat) (fork : Option StakeBlockIndex) :
    StakeBlockIndex → StakeNodeCache → Except Fault StakeNodeCache
  -- `prev == nullptr`: the loop continues to `it = nullptr` and ends
  | .root _, cache => .ok cache
  | .cons prev a, cache =>
    if some (.cons prev a) = fork then .ok cache
    else if (cache prev).isSome then disconnectWalk p cr fuel fork prev cache
    else do
      let itNode ← deref (cache (.cons prev a))
      let prevNode ← deref (cache prev)
      let stakeNode ← itNode.disconnectNode p cr fuel prev.data.lotteryIV prevNode.undoData
        prevNode.newTickets
      disconnectWalk p cr fuel fork prev (Function.update cache prev stakeNode)

/-- `attachNodes`: the entries of `pindex`'s branch above the fork point, lowest first. The
source sizes a vector by `pindex->nHeight - fork->nHeight` and fills it by a walk from `pindex`
down to the fork.
Source: `src/validation.cpp` `FetchStakeNode`
Kind: D
Fidelity: exact when the fork is an ancestor of `pindex`, which `findFork` makes it -/
def attachNodes (fork pindex : StakeBlockIndex) : List StakeBlockIndex := fork.above pindex

/-- The walk over `attachNodes`: a loaded node is skipped, a missing one connected from its
parent's node.
Source: `src/validation.cpp` `FetchStakeNode` (the second loop)
Kind: D -/
def attachWalk (p : Params) (cr : Crypto) (fuel : Nat) :
    List StakeBlockIndex → StakeNodeCache → Except Fault StakeNodeCache
  | [], cache => .ok cache
  | it :: rest, cache =>
    if (cache it).isSome then attachWalk p cr fuel rest cache
    else do
      let prev ← deref it.parent?
      let prevNode ← deref (cache prev)
      let stakeNode ← connectBlockStake p cr fuel it prevNode
      attachWalk p cr fuel rest (Function.update cache it stakeNode)

/-- `FetchStakeNode(pindex, params)` with the active chain's tip `tip`: the node and the cache
after the call.
Source: `src/validation.cpp` `FetchStakeNode`
Kind: D
Fidelity: exact, with the lottery bounded by `fuel` -/
def fetchStakeNode (p : Params) (cr : Crypto) (fuel : Nat) (tip pindex : StakeBlockIndex)
    (cache : StakeNodeCache) : Except Fault (Option StakeNode × StakeNodeCache) :=
  match cache pindex with
  | some n => .ok (some n, cache)
  | none => do
    let prev ← deref pindex.parent?
    match cache prev with
    -- the parent's node is loaded: one `ConnectNode`
    | some prevNode =>
      let stakeNode ← connectBlockStake p cr fuel pindex prevNode
      .ok (stakeNode, Function.update cache pindex stakeNode)
    | none =>
      let fork := findFork tip pindex
      let cache ← disconnectWalk p cr fuel fork tip cache
      if some pindex = fork then .ok (cache pindex, cache)
      else do
        -- `fork->nHeight` in the size of `attachNodes`
        let fork ← deref fork
        let cache ← attachWalk p cr fuel (attachNodes fork pindex) cache
        .ok (cache pindex, cache)

end BwsCoin.Stake
