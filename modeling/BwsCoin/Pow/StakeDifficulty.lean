import Mathlib
import BwsCoin.Pow.Arith
import BwsCoin.Stake.Remuneration
import BwsCoin.Consensus.Params
import BwsCoin.Chain.StakeChain

/-!
# The ticket price

The price of a ticket, the stake difficulty, changes once every `nStakeDiffWindowSize` blocks
(`src/pow.cpp`). At a window boundary `CalculateNextRequiredStakeDifficulty` scales the current
price by the square of the pool's growth over the window and by its distance to the target size,
`CalcNextStakeDiffV2`, and clamps the result between `nMinimumStakeDiff` and the estimated coin
supply shared over the pool, `EstimateSupply`, which sums the block subsidies epoch by epoch.
`EstimateNextStakeDifficulty` predicts the next price from inside a window, assuming a number of
tickets still to be bought.

Integers are unbounded where the source's `int64_t` sums cannot leave their range on a chain; a
sum that overflows is undefined in the source. The conversions the source makes are explicit:
`int64_t` to `int` (`intOf`), `int64_t` to `uint64_t` for the `arith_uint256` constructor
(`uint64Of`), and the low 64 bits of an `arith_uint256` back to `int64_t` (`int64Of`). C++ signed
division and remainder truncate towards zero and are undefined for a zero divisor (`cDiv`,
`cMod`).
-/

namespace BwsCoin.Pow

open Consensus Chain Stake

/-- `COINBASE_MATURITY`. Source: `src/consensus/consensus.h`. Kind: D -/
def coinbaseMaturity : Int := 100

/-- `a / b` of signed integers: truncating, undefined for `b = 0`.
Source: none: the C++ operator
Kind: D -/
def cDiv (a b : Int) : Except Fault Int :=
  if b = 0 then .error (.undefined "integer division by zero") else .ok (a.tdiv b)

/-- `a % b` of signed integers: the remainder of `cDiv`, undefined for `b = 0`.
Source: none: the C++ operator
Kind: D -/
def cMod (a b : Int) : Except Fault Int :=
  if b = 0 then .error (.undefined "integer division by zero") else .ok (a.tmod b)

/-! ## The subsidy and the supply -/

/-- `GetTotalBlockSubsidy(nHeight)`: `nTotalBlockSubsidy * COIN` halved every
`nSubsidyHalvingInterval` blocks, `0` from `64` halvings on. The right shift of a negative count
is undefined.
Source: `src/pow.cpp` `GetTotalBlockSubsidy`
Kind: D -/
def getTotalBlockSubsidy (p : StakeParams) (nHeight : Int) : Except Fault Int :=
  cDiv nHeight p.nSubsidyHalvingInterval.toInt >>= fun halvings =>
    -- Force block reward to zero when right shift is undefined.
    if halvings ≥ 64 then .ok 0
    else if halvings < 0 then .error (.undefined "shift by a negative count")
    else .ok ((p.nTotalBlockSubsidy.toInt * coin) >>> halvings.toNat)

/-- The loop of `EstimateSupply` over `i < halvings`: each turn adds a whole epoch of the current
subsidy and halves it, or zeroes it from the turn `64` on. Returns `(supply, subsidy)`.
Source: `src/pow.cpp` `EstimateSupply` (the `for` loop)
Kind: D -/
def estimateSupplyLoop (nSubsidyHalvingInterval : Int) (halvings : Nat) (subsidy : Int) :
    Int × Int :=
  (List.range halvings).foldl
    (fun (supply, subsidy) i =>
      (supply + nSubsidyHalvingInterval * subsidy, if i ≥ 64 then 0 else subsidy >>> (1 : Nat)))
    (0, subsidy)

/-- `EstimateSupply(height)`: `0` up to height `0`; otherwise the whole epochs before the one of
`height`, then `1 + height % nSubsidyHalvingInterval` blocks of its subsidy. `halvings` is an
`int`.
Source: `src/pow.cpp` `EstimateSupply`
Kind: D
Fidelity: exact where the sums stay within `int64_t` -/
def estimateSupply (p : StakeParams) (height : Int) : Except Fault Int :=
  if height ≤ 0 then .ok 0
  else
    cDiv height p.nSubsidyHalvingInterval.toInt >>= fun q =>
    getTotalBlockSubsidy p 0 >>= fun subsidy =>
    let (supply, subsidy) :=
      estimateSupplyLoop p.nSubsidyHalvingInterval.toInt (intOf q).toNat subsidy
    cMod height p.nSubsidyHalvingInterval.toInt >>= fun r =>
    .ok (supply + (1 + r) * subsidy)

/-! ## The price formula -/

/-- `nextDiffBig`: `curDiff * curPoolSizeAll^2 / prevPoolSizeAll / targetPoolSizeAll` in
`arith_uint256` arithmetic, each `int64_t` operand taken through `uint64_t`.
Source: `src/pow.cpp` `CalcNextStakeDiffV2`
Kind: D -/
def nextDiffBig (curDiff prevPoolSizeAll curPoolSizeAll targetPoolSizeAll : Int) :
    Except Fault (BitVec 256) :=
  let curPoolSizeAllBig := BitVec.ofNat 256 (uint64Of curPoolSizeAll)
  div256 (BitVec.ofNat 256 (uint64Of curDiff) * curPoolSizeAllBig * curPoolSizeAllBig)
      (BitVec.ofNat 256 (uint64Of prevPoolSizeAll)) >>= fun big =>
    div256 big (BitVec.ofNat 256 (uint64Of targetPoolSizeAll))

/-- The two limits of `CalcNextStakeDiffV2`: down to `maximumStakeDiff`, then up to
`nMinimumStakeDiff`, so the lower limit wins when they cross.
Source: `src/pow.cpp` `CalcNextStakeDiffV2`
Kind: D -/
def clampStakeDiff (nMinimumStakeDiff maximumStakeDiff nextDiff : Int) : Int :=
  let nextDiff := if nextDiff > maximumStakeDiff then maximumStakeDiff else nextDiff
  if nextDiff < nMinimumStakeDiff then nMinimumStakeDiff else nextDiff

/-- `CalcNextStakeDiffV2(params, nextHeight, curDiff, prevPoolSizeAll, curPoolSizeAll)`: the low
64 bits of `nextDiffBig` as an `int64_t`, clamped between `nMinimumStakeDiff` and
`EstimateSupply(nextHeight) / nTicketPoolSize`.
Source: `src/pow.cpp` `CalcNextStakeDiffV2`
Kind: D
Fidelity: exact -/
def calcNextStakeDiffV2 (p : StakeParams) (nextHeight curDiff prevPoolSizeAll curPoolSizeAll : Int) :
    Except Fault Int :=
  let votesPerBlock : Int := p.nTicketsPerBlock.toNat
  let ticketPoolSize : Int := p.nTicketPoolSize.toNat
  let ticketMaturity : Int := p.nTicketMaturity.toNat
  let targetPoolSizeAll := votesPerBlock * (ticketPoolSize + ticketMaturity)
  nextDiffBig curDiff prevPoolSizeAll curPoolSizeAll targetPoolSizeAll >>= fun big =>
  estimateSupply p nextHeight >>= fun estimatedSupply =>
  cDiv estimatedSupply ticketPoolSize >>= fun maximumStakeDiff =>
    .ok (clampStakeDiff p.nMinimumStakeDiff.toInt maximumStakeDiff (int64Of (big.toNat % 2 ^ 64)))

/-! ## The price at a window boundary, and its estimate -/

/-- The walk of `SumPurchasedTickets` from an entry: the tickets bought in at most `numToSum`
blocks back along `pprev`.
Source: `src/pow.cpp` `SumPurchasedTickets` (the loop)
Kind: D -/
def sumPurchasedTicketsFrom : ChainIndex → Int → Int
  | .root a, numToSum => if 0 < numToSum then a.nFreshStake.toNat else 0
  | .cons parent a, numToSum =>
    if 0 < numToSum then a.nFreshStake.toNat + sumPurchasedTicketsFrom parent (numToSum - 1)
    else 0

/-- `SumPurchasedTickets(pindexStart, numToSum)`, `0` from a null entry.
Source: `src/pow.cpp` `SumPurchasedTickets`
Kind: D -/
def sumPurchasedTickets (pindexStart : Option ChainIndex) (numToSum : Int) : Int :=
  match pindexStart with
  | none => 0
  | some node => sumPurchasedTicketsFrom node numToSum

/-- `prevPoolSizeAll` of both price functions: the pool size and the tickets still immature at the
previous retarget, read at the entry just before height `nextHeight - nStakeDiffWindowSize`.
Source: `src/pow.cpp` `CalculateNextRequiredStakeDifficulty`, `EstimateNextStakeDifficulty`
Kind: D -/
def prevPoolSizeAll (p : StakeParams) (last : ChainIndex) (nextHeight : Int) : Int :=
  let prevRetargetNode :=
    last.getAncestor (intOf (nextHeight - p.nStakeDiffWindowSize.toInt - 1))
  let prevPoolSize : Int :=
    match prevRetargetNode with
    | none => 0
    | some node => node.data.nTicketPoolSize.toNat
  prevPoolSize + sumPurchasedTickets prevRetargetNode p.nTicketMaturity.toNat

/-- `CalculateNextRequiredStakeDifficulty(pindexLast)`: the minimum before height `101`, the
tip's price inside a window, the current price while the previous pool was empty, and otherwise
`CalcNextStakeDiffV2` over the pool sizes with their immature tickets. `nHeight + 1` is an `int`
sum.
Source: `src/pow.cpp` `CalculateNextRequiredStakeDifficulty`
Kind: D
Fidelity: exact -/
def calculateNextRequiredStakeDifficulty (p : StakeParams) (pindexLast : Option ChainIndex) :
    Except Fault Int :=
  (match pindexLast with
    | none => .ok 0
    | some last => intAdd last.nHeight 1) >>= fun nextHeight =>
  if nextHeight < coinbaseMaturity + 1 then .ok p.nMinimumStakeDiff.toInt
  else
    match pindexLast with
    | none => .error .nullDeref
    | some last =>
      let curDiff := last.data.nStakeDifficulty.toInt
      cMod nextHeight p.nStakeDiffWindowSize.toInt >>= fun r =>
      if r ≠ 0 then .ok curDiff
      else
        let prevPoolSizeAll := prevPoolSizeAll p last nextHeight
        if prevPoolSizeAll = 0 then .ok curDiff
        else
          let immatureTickets := sumPurchasedTickets (some last) p.nTicketMaturity.toNat
          let curPoolSizeAll := (last.data.nTicketPoolSize.toNat : Int) + immatureTickets
          calcNextStakeDiffV2 p nextHeight curDiff prevPoolSizeAll curPoolSizeAll

/-- The part of `EstimateNextStakeDifficulty` that reads the tip: the previous pool, the tickets
that will still be immature at the next retarget, those maturing before it, the votes it will
see, and `CalcNextStakeDiffV2` over the estimated pool.
Source: `src/pow.cpp` `EstimateNextStakeDifficulty` (from `prevRetargetHeight` on)
Kind: D -/
def estimateAtTip (p : StakeParams) (last : ChainIndex)
    (nextRetargetHeight blocksUntilRetarget newTickets : Int) : Except Fault Int :=
  let curHeight := last.nHeight
  let ticketMaturity : Int := p.nTicketMaturity.toNat
  let maxTicketsPerBlock : Int := p.nMaxFreshStakePerBlock.toNat
  let curDiff := last.data.nStakeDifficulty.toInt
  let prevPoolSizeAll := prevPoolSizeAll p last nextRetargetHeight
  if prevPoolSizeAll = 0 then .ok curDiff
  else
    -- the tickets of the known blocks that will still be immature at the next retarget
    let nextMaturityFloor := nextRetargetHeight - ticketMaturity - 1
    let remainingImmatureTickets :=
      if curHeight > nextMaturityFloor then
        sumPurchasedTickets (some last) (curHeight - nextMaturityFloor)
      else 0
    let maxImmatureTickets := ticketMaturity * maxTicketsPerBlock
    let remainingImmatureTickets := remainingImmatureTickets +
      if newTickets > maxImmatureTickets then maxImmatureTickets else newTickets
    -- the tickets that mature in the rest of the interval
    let finalMaturingHeight :=
      if nextMaturityFloor - 1 > curHeight then curHeight else nextMaturityFloor - 1
    let finalMaturingNode := last.getAncestor (intOf finalMaturingHeight)
    let firstMaturingHeight := curHeight - ticketMaturity
    let maturingTickets :=
      sumPurchasedTickets finalMaturingNode (finalMaturingHeight - firstMaturingHeight + 1)
    let maturingTickets := maturingTickets +
      if curHeight < nextMaturityFloor then
        let maturingEstimatedTickets := maxTicketsPerBlock * (nextMaturityFloor - curHeight - 1)
        if maturingEstimatedTickets > newTickets then newTickets else maturingEstimatedTickets
      else 0
    -- the votes in the rest of the interval
    let stakeValidationHeight := p.nStakeValidationHeight.toInt
    let pendingVotes :=
      if nextRetargetHeight > stakeValidationHeight then
        let votingBlocks :=
          if curHeight < stakeValidationHeight then nextRetargetHeight - stakeValidationHeight
          else blocksUntilRetarget - 1
        votingBlocks * (p.nTicketsPerBlock.toNat : Int)
      else 0
    let curPoolSize : Int := last.data.nTicketPoolSize.toNat
    let estimatedPoolSize := curPoolSize + maturingTickets - pendingVotes
    let estimatedPoolSizeAll := estimatedPoolSize + remainingImmatureTickets
    calcNextStakeDiffV2 p nextRetargetHeight curDiff prevPoolSizeAll estimatedPoolSizeAll

/-- `EstimateNextStakeDifficulty(pindexLast, newTickets, useMaxTickets)`: the price of the next
window, assuming `newTickets` more tickets (or as many as the rest of the window allows) are bought
before it. More tickets than the window allows throw `std::logic_error`. `newTickets` is an `int`.
Source: `src/pow.cpp` `EstimateNextStakeDifficulty`
Kind: D
Fidelity: exact -/
def estimateNextStakeDifficulty (p : StakeParams) (pindexLast : Option ChainIndex)
    (newTickets : Int) (useMaxTickets : Bool) : Except Fault Int :=
  let curHeight : Int :=
    match pindexLast with
    | none => 0
    | some last => last.nHeight
  let intervalSize := p.nStakeDiffWindowSize.toInt
  cMod curHeight intervalSize >>= fun r =>
  let blocksUntilRetarget := intervalSize - r
  let nextRetargetHeight := curHeight + blocksUntilRetarget
  let maxRemainingTickets := (blocksUntilRetarget - 1) * (p.nMaxFreshStakePerBlock.toNat : Int)
  let newTickets := if useMaxTickets then intOf maxRemainingTickets else newTickets
  if newTickets > maxRemainingTickets then
    .error (.raise ("Unable to create an estimate stake difficulty with more tickets than the " ++
      "maximum remaining tickets"))
  else if nextRetargetHeight < coinbaseMaturity + 1 then .ok p.nMinimumStakeDiff.toInt
  else
    match pindexLast with
    | none => .error .nullDeref
    | some last => estimateAtTip p last nextRetargetHeight blocksUntilRetarget newTickets

end BwsCoin.Pow
