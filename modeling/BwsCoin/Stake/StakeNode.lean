import BwsCoin.Consensus.Params
import BwsCoin.Stake.Treap
import BwsCoin.Stake.Prng

/-!
# Stake nodes

`StakeNode` (`src/stake/stakenode.cpp`) is the ticket database at one block: the live, missed
and revoked tickets as three persistent treaps, the undo data of the block that produced it,
the tickets it added, the winners of the next lottery and the lottery's checksum.

* `connectNode` — `StakeNode::ConnectNode`, in the source's four loops: the previous winners
  (`spendOrMissWinner`), the expiry walk (`expireTicket`), the revocations (`revokeTicket`) and
  the new tickets (`addTicket`), then the lottery (`drawWinners`);
* `disconnectNode` — `StakeNode::DisconnectNode`: each undo entry replayed by `restoreTicket`,
  then the lottery's checksum recomputed.

The source's `assert("unknown ticket spent in block")` asserts a string literal, which is never
null, so its loop over the votes does nothing and is not modelled. `boost::optional`'s
`operator->` asserts that the optional holds a value (`BOOST_ASSERT`), which is how a
revocation of a ticket that is not missed ends. The expiry walk calls `forEachByHeight` on
`connectedNode->liveTickets` while its callback replaces that treap: the walk holds the nodes
of the tree it started on and the updates rebuild paths without touching old nodes, so the
model walks that tree and threads the node being built as the walk's state.
-/

namespace BwsCoin.Stake

open Consensus

/-- One entry of a block's undo data: a ticket and its flags after the block.
Source: `src/stake/stakenode.h` `UndoTicketData`
Kind: D
Fidelity: exact -/
structure UndoTicketData where
  /-- `ticketHash`. -/
  ticketHash : Uint256
  /-- `ticketHeight`. -/
  ticketHeight : UInt32
  /-- `missed`. -/
  missed : Bool
  /-- `revoked`. -/
  revoked : Bool
  /-- `spent`. -/
  spent : Bool
  /-- `expired`. -/
  expired : Bool
  deriving DecidableEq, Repr

/-- `UndoTicketData{key, v.height, v.missed, v.revoked, v.spent, v.expired}`, the entry every
loop of `ConnectNode` pushes.
Source: `src/stake/stakenode.cpp` `StakeNode::ConnectNode`
Kind: D -/
def UndoTicketData.ofValue (key : Uint256) (v : Value) : UndoTicketData :=
  ⟨key, v.height, v.missed, v.revoked, v.spent, v.expired⟩

/-- The ticket database at one block. The source also holds a reference to the consensus
parameters, which the model passes to `connectNode` and `disconnectNode`.
Source: `src/stake/stakenode.h` `StakeNode`
Kind: D
Fidelity: exact -/
structure StakeNode where
  /-- `height`. -/
  height : UInt32
  /-- `liveTickets`. -/
  liveTickets : TicketTreap
  /-- `missedTickets`. -/
  missedTickets : TicketTreap
  /-- `revokedTickets`. -/
  revokedTickets : TicketTreap
  /-- `databaseUndoUpdate`, the undo data of the block that produced the node. -/
  databaseUndoUpdate : List UndoTicketData
  /-- `databaseBlockTickets`, the tickets the block added. -/
  databaseBlockTickets : List Uint256
  /-- `nextWinners`, the tickets the next block may vote with. -/
  nextWinners : List Uint256
  /-- `finalState`, the lottery's checksum. -/
  finalState : Uint48

namespace StakeNode

/-- `StakeNode::genesisNode`: height `0`, no tickets.
Source: `src/stake/stakenode.cpp` `StakeNode::genesisNode`, `src/stake/stakenode.h`
`StakeNode(const Consensus::Params&)`
Kind: D -/
def genesisNode : StakeNode :=
  ⟨0, .empty, .empty, .empty, [], [], [], Uint48.zero⟩

/-- Source: `src/stake/stakenode.cpp` `StakeNode::UndoData`. Kind: D -/
def undoData (n : StakeNode) : List UndoTicketData := n.databaseUndoUpdate

/-- Source: `src/stake/stakenode.cpp` `StakeNode::NewTickets`. Kind: D -/
def newTickets (n : StakeNode) : List Uint256 := n.databaseBlockTickets

/-- Source: `src/stake/stakenode.cpp` `StakeNode::Winners`. Kind: D -/
def winners (n : StakeNode) : List Uint256 := n.nextWinners

/-- Source: `src/stake/stakenode.cpp` `StakeNode::PoolSize`. Kind: D -/
def poolSize (n : StakeNode) : Nat := n.liveTickets.len

/-! ## The comparisons with the parameters

`height` is a `uint32_t` and the two stake heights are `int32_t`, so each comparison converts
the parameter (after the subtraction, for `nStakeValidationHeight - 1`) to `uint32_t`. -/

/-- `height >= params.nStakeEnabledHeight`.
Source: `src/stake/stakenode.cpp` `StakeNode::ConnectNode`
Kind: D -/
def stakeEnabled (p : Params) (height : UInt32) : Bool :=
  height ≥ UInt32.ofInt p.nStakeEnabledHeight.toInt

/-- `height >= params.nStakeValidationHeight - 1`: the connected node draws the next winners.
Source: `src/stake/stakenode.cpp` `StakeNode::ConnectNode`
Kind: D -/
def lotteryDue (p : Params) (height : UInt32) : Bool :=
  height ≥ UInt32.ofInt (p.nStakeValidationHeight.toInt - 1)

/-- `this->height >= this->params.nStakeValidationHeight`: the disconnected node's parent
drew winners.
Source: `src/stake/stakenode.cpp` `StakeNode::DisconnectNode`
Kind: D -/
def parentDrewLottery (p : Params) (height : UInt32) : Bool :=
  height ≥ UInt32.ofInt p.nStakeValidationHeight.toInt

/-- `toExpireHeight`: `height - nTicketExpiry` when the height is above the expiry, else `0`.
Source: `src/stake/stakenode.cpp` `StakeNode::ConnectNode`
Kind: D -/
def toExpireHeight (p : Params) (height : UInt32) : UInt32 :=
  if height > p.nTicketExpiry then height - p.nTicketExpiry else 0

/-! ## `ConnectNode` -/

/-- The value a winner gets: spent if it voted, missed otherwise.
Source: `src/stake/stakenode.cpp` `StakeNode::ConnectNode`
Kind: D -/
def winnerValue (voted : Bool) (value : Value) : Value :=
  if voted then { value with spent := true, missed := false }
  else { value with spent := false, missed := true }

/-- One turn of the winners loop: the winner must be live (`assert(value)`); a voted winner is
dropped from the live treap, a missed one moved to the missed treap.
Source: `src/stake/stakenode.cpp` `StakeNode::ConnectNode`
Kind: D
Fidelity: exact -/
def spendOrMissWinner (ticketsVoted : List Uint256) (c : StakeNode) (it : Uint256) :
    Except Fault StakeNode :=
  match c.liveTickets.get it with
  | none => .error (.abort "value")
  | some value =>
    let value := winnerValue (it ∈ ticketsVoted) value
    let c := { c with liveTickets := c.liveTickets.deleteKey it }
    let c := if it ∈ ticketsVoted then c else { c with missedTickets := c.missedTickets.put it value }
    .ok { c with databaseUndoUpdate := c.databaseUndoUpdate ++ [.ofValue it value] }

/-- The value an expired ticket gets.
Source: `src/stake/stakenode.cpp` `StakeNode::ConnectNode`
Kind: D -/
def expiredValue (value : Value) : Value := { value with missed := true, expired := true }

/-- The expiry walk's callback: move the ticket from the live to the missed treap, expired.
Source: `src/stake/stakenode.cpp` `StakeNode::ConnectNode`
Kind: D
Fidelity: exact -/
def expireTicket (c : StakeNode) (treapKey : Uint256) (value : Value) : StakeNode :=
  let v := expiredValue value
  { c with
    liveTickets := c.liveTickets.deleteKey treapKey
    missedTickets := c.missedTickets.put treapKey v
    databaseUndoUpdate := c.databaseUndoUpdate ++ [.ofValue treapKey v] }

/-- One turn of the revocations loop: the ticket moves from the missed to the revoked treap,
revoked; a ticket that is not missed fails `boost::optional`'s assertion.
Source: `src/stake/stakenode.cpp` `StakeNode::ConnectNode`
Kind: D
Fidelity: exact -/
def revokeTicket (c : StakeNode) (it : Uint256) : Except Fault StakeNode :=
  match c.missedTickets.get it with
  | none => .error (.abort "this->is_initialized()")
  | some value =>
    let value := { value with revoked := true }
    .ok { c with
      missedTickets := c.missedTickets.deleteKey it
      revokedTickets := c.revokedTickets.put it value
      databaseUndoUpdate := c.databaseUndoUpdate ++ [.ofValue it value] }

/-- One turn of the new-tickets loop: a live ticket at the node's height.
Source: `src/stake/stakenode.cpp` `StakeNode::ConnectNode`
Kind: D
Fidelity: exact -/
def addTicket (c : StakeNode) (it : Uint256) : StakeNode :=
  let v : Value := ⟨c.height, false, false, false, false⟩
  { c with
    liveTickets := c.liveTickets.put it v
    databaseUndoUpdate := c.databaseUndoUpdate ++ [.ofValue it v] }

/-- The block of `ConnectNode` that runs from `nStakeEnabledHeight` on: the previous winners,
the expiry walk over the tickets of height at most `toExpireHeight`, and the revocations.
Source: `src/stake/stakenode.cpp` `StakeNode::ConnectNode`
Kind: D
Fidelity: exact; the expiry walk is `forEachByHeight`, bounded as `TicketTreap.walkParents` -/
def connectStake (p : Params) (c : StakeNode) (prevWinners ticketsVoted revokedTickets : List Uint256) :
    Except Fault StakeNode := do
  let c ← prevWinners.foldlM (spendOrMissWinner ticketsVoted) c
  let c ← c.liveTickets.forEachByHeight (toExpireHeight p c.height + 1)
    (fun k v c => (true, c.expireTicket k v)) c
  revokedTickets.foldlM revokeTicket c

/-- `SetHex(Hash(stateBuffer).GetHex())` for `stateBuffer` the winners and the generator's
`StateHash()`.
Source: `src/stake/stakenode.cpp` `StakeNode::ConnectNode`, `StakeNode::DisconnectNode`
Kind: D -/
def lotteryState (cr : Crypto) (winners : List Uint256) (prng : Hash256PRNG) : Uint48 :=
  (cr.hash ((winners ++ [prng.stateHash cr]).flatMap Uint256.bytes)).toStakeState

/-- The lottery at the end of `ConnectNode`: `nullptr` when fewer than `nTicketsPerBlock`
tickets are live, otherwise the winners at the drawn ranks and the checksum.
Source: `src/stake/stakenode.cpp` `StakeNode::ConnectNode`
Kind: D
Fidelity: bounded (`fuel`, see `Hash256PRNG.findTicketIdxs`) -/
def drawWinners (p : Params) (cr : Crypto) (fuel : Nat) (lotteryIV : Uint256) (c : StakeNode) :
    Except Fault (Option StakeNode) :=
  if c.liveTickets.len < p.nTicketsPerBlock.toNat then .ok none
  else do
    let (idxs, prng) ← (Hash256PRNG.init lotteryIV).findTicketIdxs cr fuel
      (UInt32.ofNat c.liveTickets.len) p.nTicketsPerBlock.toUInt32
    let nextWinnerKeys ← c.liveTickets.fetchWinners idxs
    .ok (some { c with nextWinners := nextWinnerKeys, finalState := lotteryState cr nextWinnerKeys prng })

/-- `StakeNode::ConnectNode`: the child node for a block with the given lottery IV, votes,
revocations and new tickets; `none` is the source's `nullptr`.
Source: `src/stake/stakenode.cpp` `StakeNode::ConnectNode`
Kind: D
Fidelity: exact, with the lottery bounded by `fuel` -/
def connectNode (p : Params) (cr : Crypto) (fuel : Nat) (n : StakeNode) (lotteryIV : Uint256)
    (ticketsVoted revokedTickets newTickets : List Uint256) : Except Fault (Option StakeNode) := do
  let c : StakeNode :=
    ⟨n.height + 1, n.liveTickets, n.missedTickets, n.revokedTickets, [], newTickets, [], Uint48.zero⟩
  let c ← if stakeEnabled p c.height then c.connectStake p n.nextWinners ticketsVoted revokedTickets
    else .ok c
  let c := newTickets.foldl addTicket c
  if lotteryDue p c.height then c.drawWinners p cr fuel lotteryIV else .ok (some c)

/-! ## `DisconnectNode` -/

/-- One turn of `DisconnectNode`'s loop, by the entry's flags: a new ticket leaves the live
treap; a revoked one goes back to the missed treap; a missed one (a missed winner, or expired)
goes back to the live treap, a winner also back to the winners; a spent one goes back to the
live treap and the winners; any other combination fails the assertion.
Source: `src/stake/stakenode.cpp` `StakeNode::DisconnectNode`
Kind: D
Fidelity: exact (the source's `stateBuffer` receives exactly the pushes to `nextWinners`) -/
def restoreTicket (r : StakeNode) (it : UndoTicketData) : Except Fault StakeNode :=
  let k := it.ticketHash
  let v : Value := ⟨it.ticketHeight, it.missed, it.revoked, it.spent, it.expired⟩
  if !it.missed && !it.revoked && !it.spent then
    .ok { r with liveTickets := r.liveTickets.deleteKey k }
  else if it.missed && it.revoked then
    .ok { r with
      revokedTickets := r.revokedTickets.deleteKey k
      missedTickets := r.missedTickets.put k { v with revoked := false } }
  else if it.missed && !it.revoked then
    let nextWinners := if !it.expired then r.nextWinners ++ [k] else r.nextWinners
    let v := if !it.expired then v else { v with expired := false }
    .ok { r with
      nextWinners := nextWinners
      missedTickets := r.missedTickets.deleteKey k
      liveTickets := r.liveTickets.put k { v with missed := false } }
  else if it.spent then
    .ok { r with
      nextWinners := r.nextWinners ++ [k]
      liveTickets := r.liveTickets.put k { v with spent := false } }
  else .error (.abort "!\"unknown ticket state in undo data\"")

/-- `StakeNode::DisconnectNode`: the parent node rebuilt from this node, the parent's lottery
IV and the parent's own undo data and new tickets.
Source: `src/stake/stakenode.cpp` `StakeNode::DisconnectNode`
Kind: D
Fidelity: exact, with the lottery bounded by `fuel` -/
def disconnectNode (p : Params) (cr : Crypto) (fuel : Nat) (n : StakeNode)
    (parentLotteryIV : Uint256) (parentUtds : List UndoTicketData) (parentTickets : List Uint256) :
    Except Fault (Option StakeNode) := do
  if n.height = 1 then return some genesisNode
  let r : StakeNode :=
    ⟨n.height - 1, n.liveTickets, n.missedTickets, n.revokedTickets, parentUtds, parentTickets, [],
      Uint48.zero⟩
  let r ← n.databaseUndoUpdate.foldlM restoreTicket r
  if parentDrewLottery p n.height then
    if r.liveTickets.len < p.nTicketsPerBlock.toNat then return none
    let (_, prng) ← (Hash256PRNG.init parentLotteryIV).findTicketIdxs cr fuel
      (UInt32.ofNat r.liveTickets.len) p.nTicketsPerBlock.toUInt32
    return some { r with finalState := lotteryState cr r.nextWinners prng }
  else return some r

end StakeNode

end BwsCoin.Stake
