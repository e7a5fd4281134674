import BwsCoin.Pow.Arith
import BwsCoin.Consensus.Params

/-!
# Proof-of-work retargeting

`GetNextWorkRequired` (`src/pow.cpp`) computes the compact target a block must meet from its
parent `pindexPrev`. Three paths:

* regtest (`fPowNoRetargeting`) keeps the parent's `nBits`;
* before the hybrid consensus fork, the legacy Bitcoin rule `GetNextLegacyWorkRequired`:
  retarget once per `DifficultyAdjustmentInterval()` blocks by `CalculateNextWorkRequired`;
* from the fork on, the "cash" rule `GetNextCashWorkRequired`: a fixed initial difficulty for
  `nHybridConsensusInitialDifficultyBlockCount` blocks, then the work done between two medians
  of three (`GetSuitableBlock`) 144 blocks apart, through `ComputeTarget`.

The block index is `BlockIndex`: a chain of entries linked by `pprev` back to a genesis entry,
whose height is its depth, so that every index the model can build has consistent heights and
links. The C++ `int`/`int64_t` arithmetic on heights and times is `Int` arithmetic: on every
chain below `2^31` blocks and every shipped parameter set no sum or product leaves its type.
-/

namespace BwsCoin.Pow

open Consensus

/-- The fields of a `CBlockIndex` that retargeting reads, besides its links.
Source: `src/chain.h` `CBlockIndex` (`nTime`, `nBits`, `nChainWork`)
Kind: D
Fidelity: exact on these fields; the others are read by no modelled function -/
structure IndexFields where
  nTime : UInt32
  nBits : UInt32
  nChainWork : BitVec 256
  deriving DecidableEq, Repr

/-- A block index entry with its chain of `pprev` links back to the genesis entry.
Source: `src/chain.h` `CBlockIndex` (`pprev`)
Kind: D
Fidelity: exact on well-formed indexes: every entry but the genesis one has a parent one height
below it -/
inductive BlockIndex where
  | genesis (f : IndexFields)
  | cons (pprev : BlockIndex) (f : IndexFields)
  deriving DecidableEq, Repr

namespace BlockIndex

/-- Source: `src/chain.h` `CBlockIndex`. Kind: D -/
def fields : BlockIndex → IndexFields
  | genesis f => f
  | cons _ f => f

/-- `nHeight`: the number of links back to the genesis entry.
Source: `src/chain.h` `CBlockIndex::nHeight`
Kind: D -/
def nHeight : BlockIndex → Nat
  | genesis _ => 0
  | cons pprev _ => pprev.nHeight + 1

/-- `pprev`, null at the genesis entry.
Source: `src/chain.h` `CBlockIndex::pprev`
Kind: D -/
def pprev : BlockIndex → Option BlockIndex
  | genesis _ => none
  | cons pprev _ => some pprev

/-- Source: `src/chain.h` `CBlockIndex::nTime`. Kind: D -/
def nTime (b : BlockIndex) : UInt32 := b.fields.nTime

/-- Source: `src/chain.h` `CBlockIndex::nBits`. Kind: D -/
def nBits (b : BlockIndex) : UInt32 := b.fields.nBits

/-- Source: `src/chain.h` `CBlockIndex::nChainWork`. Kind: D -/
def nChainWork (b : BlockIndex) : BitVec 256 := b.fields.nChainWork

/-- `GetBlockTime()`: `(int64_t)nTime`.
Source: `src/chain.h` `CBlockIndex::GetBlockTime`
Kind: D -/
def getBlockTime (b : BlockIndex) : Int := b.nTime.toNat

/-- `n` steps back along `pprev`, stopping at the genesis entry.
Source: `src/chain.cpp` `CBlockIndex::GetAncestor` (the walk)
Kind: D -/
def walkBack : BlockIndex → Nat → BlockIndex
  | b, 0 => b
  | genesis f, _ + 1 => genesis f
  | cons pprev _, n + 1 => pprev.walkBack n

/-- `GetAncestor(height)`: null outside `[0, nHeight]`, else the entry at that height.
Source: `src/chain.cpp` `CBlockIndex::GetAncestor`
Kind: D
Fidelity: exact on the result; the `pskip` shortcut of the source reaches the same entry as the
`pprev` walk on a well-formed index, and its `assert(pindexWalk->pprev)` holds on the walk -/
def getAncestor (b : BlockIndex) (height : Int) : Option BlockIndex :=
  if height > b.nHeight ∨ height < 0 then none
  else some (b.walkBack (b.nHeight - height.toNat))

/-- The loop of `GetNextLegacyWorkRequired` that walks back over min-difficulty blocks:
`while (pindex->pprev && pindex->nHeight % DAI != 0 && pindex->nBits == nProofOfWorkLimit)`.
Source: `src/pow.cpp` `GetNextLegacyWorkRequired`
Kind: D
Fidelity: exact -/
def lastNonMinDifficulty (dai : Int) (nProofOfWorkLimit : UInt32) : BlockIndex → BlockIndex
  | genesis f => genesis f
  | cons pprev f =>
    if Int.tmod (pprev.nHeight + 1 : Nat) dai ≠ 0 ∧ f.nBits = nProofOfWorkLimit then
      lastNonMinDifficulty dai nProofOfWorkLimit pprev
    else cons pprev f

end BlockIndex

/-! ## The model of `pow.cpp` -/

/-- `IsHybridConsensusForkEnabled(height, params)`.
Source: `src/validation.cpp` `IsHybridConsensusForkEnabled`
Kind: D
Fidelity: exact -/
def isHybridConsensusForkEnabled (p : Params) (height : Int) : Bool :=
  decide (0 ≤ p.nHybridConsensusHeight.toInt ∧ p.nHybridConsensusHeight.toInt ≤ height)

/-- `CalculateNextWorkRequired`: the parent's target scaled by the clamped actual timespan over
the target timespan, with the source's overflow guard, capped at `powLimit`.
Source: `src/pow.cpp` `CalculateNextWorkRequired`
Kind: D
Fidelity: exact; `bnNew *= nActualTimespan` takes the `uint32_t` overload, `/=` the
`base_uint(uint64_t)` conversion, as C++ overload resolution picks them -/
def calculateNextWorkRequired (p : Params) (pindexFirst pindexLast : BlockIndex) :
    Except Fault UInt32 :=
  if p.fPowNoRetargeting then .ok pindexLast.nBits
  else
    -- limit adjustment step
    let nActualTimespan := pindexLast.getBlockTime - pindexFirst.getBlockTime
    let nActualTimespan := if nActualTimespan < p.nPowTargetTimespan.toInt.tdiv 4 then
      p.nPowTargetTimespan.toInt.tdiv 4 else nActualTimespan
    let nActualTimespan := if nActualTimespan > p.nPowTargetTimespan.toInt * 4 then
      p.nPowTargetTimespan.toInt * 4 else nActualTimespan
    -- retarget
    let bnPowLimit := p.powLimit
    let bnNew := setCompact pindexLast.nBits
    do
    let bnMaxCanMultiply ← div256 (~~~0) (BitVec.ofNat 256 (uint64Of nActualTimespan))
    let bnNew ← if bnNew > bnMaxCanMultiply then do
        let bnNew ← div256 bnNew (BitVec.ofNat 256 (uint64Of p.nPowTargetTimespan.toInt))
        if bnNew > bnMaxCanMultiply then pure bnPowLimit
        else pure (bnNew * BitVec.ofNat 256 (uint32Of nActualTimespan))
      else
        div256 (bnNew * BitVec.ofNat 256 (uint32Of nActualTimespan))
          (BitVec.ofNat 256 (uint64Of p.nPowTargetTimespan.toInt))
    getCompact (if bnNew > bnPowLimit then bnPowLimit else bnNew)

/-- `GetNextLegacyWorkRequired`: the legacy Bitcoin rule. Between adjustment blocks the parent's
target stays (on testnet-style parameters a late block may be min-difficulty); at an adjustment
block the target is recomputed over the last `DifficultyAdjustmentInterval()` blocks.
Source: `src/pow.cpp` `GetNextLegacyWorkRequired`
Kind: D
Fidelity: exact; `pblockTime` is the header's `nTime`, the only field of `pblock` read -/
def getNextLegacyWorkRequired (p : Params) (pindexLast : BlockIndex) (pblockTime : UInt32) :
    Except Fault UInt32 := do
  let nProofOfWorkLimit ← getCompact p.powLimit
  let dai := p.difficultyAdjustmentInterval.toInt
  -- only change once per difficulty adjustment interval
  if Int.tmod (pindexLast.nHeight + 1 : Nat) dai ≠ 0 then
    if p.fPowAllowMinDifficultyBlocks then
      if (pblockTime.toNat : Int) > pindexLast.getBlockTime + p.nPowTargetSpacing.toInt * 2 then
        .ok nProofOfWorkLimit
      else
        .ok (pindexLast.lastNonMinDifficulty dai nProofOfWorkLimit).nBits
    else .ok pindexLast.nBits
  else
    -- go back by what we want to be 14 days worth of blocks
    let nHeightFirst : Int := pindexLast.nHeight - (dai - 1)
    if ¬ nHeightFirst ≥ 0 then .error (.abort "nHeightFirst >= 0")
    else match pindexLast.getAncestor nHeightFirst with
      | none => .error (.abort "pindexFirst")
      | some pindexFirst => calculateNextWorkRequired p pindexFirst pindexLast

/-- The sorting network of `GetSuitableBlock` on `blocks[0..2]`: the median by `nTime`.
Source: `src/pow.cpp` `GetSuitableBlock` (the three compare-and-swaps)
Kind: D
Fidelity: exact -/
def medianOfThree (b0 b1 b2 : BlockIndex) : BlockIndex :=
  let (b0, b2) := if b0.nTime > b2.nTime then (b2, b0) else (b0, b2)
  let (_, b1) := if b0.nTime > b1.nTime then (b1, b0) else (b0, b1)
  let (b1, _) := if b1.nTime > b2.nTime then (b2, b1) else (b1, b2)
  b1

/-- `GetSuitableBlock(pindex)`: the median by time of `pindex` and its two parents.
Source: `src/pow.cpp` `GetSuitableBlock`
Kind: D
Fidelity: exact; a null `pprev` is dereferenced only below height 2, which the assertion excludes -/
def getSuitableBlock (pindex : BlockIndex) : Except Fault BlockIndex :=
  if ¬ pindex.nHeight ≥ 3 then .error (.abort "pindex->nHeight >= 3")
  else match pindex.pprev with
    | none => .error .nullDeref
    | some b1 => match b1.pprev with
      | none => .error .nullDeref
      | some b0 => .ok (medianOfThree b0 b1 pindex)

/-- `ComputeTarget(pindexFirst, pindexLast)`: from the work done between the two entries and the
time it took (clamped to `[72, 288]` block spacings), the target that gives one block per spacing.
Source: `src/pow.cpp` `ComputeTarget`
Kind: D
Fidelity: exact -/
def computeTarget (p : Params) (pindexFirst pindexLast : BlockIndex) :
    Except Fault (BitVec 256) :=
  if ¬ pindexLast.nHeight > pindexFirst.nHeight then
    .error (.abort "pindexLast->nHeight > pindexFirst->nHeight")
  else
    let work := pindexLast.nChainWork - pindexFirst.nChainWork
    let work := work * BitVec.ofNat 256 (uint32Of p.nPowTargetSpacing.toInt)
    -- bound the amplitude of the adjustment to a factor in [0.5, 2]
    let nActualTimespan : Int := (pindexLast.nTime.toNat : Int) - pindexFirst.nTime.toNat
    let nActualTimespan :=
      if nActualTimespan > 288 * p.nPowTargetSpacing.toInt then 288 * p.nPowTargetSpacing.toInt
      else if nActualTimespan < 72 * p.nPowTargetSpacing.toInt then 72 * p.nPowTargetSpacing.toInt
      else nActualTimespan
    do
    let work ← div256 work (BitVec.ofNat 256 (uint64Of nActualTimespan))
    if work = 0 then .ok p.hybridConsensusPowLimit
    -- (2^256 - W) / W, with 2^256 - W as the two's complement of W
    else div256 (-work) work

/-- `GetNextCashWorkRequired`: after the initial-difficulty blocks, the target from the work
between the medians at the parent and about 144 blocks back, never before the fork.
Source: `src/pow.cpp` `GetNextCashWorkRequired`
Kind: D
Fidelity: exact; `assert(pindexLast)` and `assert(pindexFirst)` hold of every result of
`getSuitableBlock`, and a null ancestor would be dereferenced by `GetSuitableBlock` -/
def getNextCashWorkRequired (p : Params) (pindexPrev : BlockIndex) (pblockTime : UInt32) :
    Except Fault UInt32 :=
  -- just after the fork, enforce the initial difficulty
  if (pindexPrev.nHeight : Int) <
      p.nHybridConsensusHeight.toInt + p.nHybridConsensusInitialDifficultyBlockCount.toInt then
    .ok p.nHybridConsensusInitialDifficulty
  else if p.fPowAllowMinDifficultyBlocks ∧
      (pblockTime.toNat : Int) > pindexPrev.getBlockTime + 2 * p.nPowTargetSpacing.toInt then
    getCompact p.hybridConsensusPowLimit
  else
    let nHeight : Int := pindexPrev.nHeight
    if ¬ nHeight ≥ p.difficultyAdjustmentInterval.toInt then
      .error (.abort "nHeight >= params.DifficultyAdjustmentInterval()")
    else do
    let pindexLast ← getSuitableBlock pindexPrev
    -- do not consider blocks before hybrid consensus takes effect
    let nHeightFirst := if nHeight - 144 < p.nHybridConsensusHeight.toInt + 1 then
      p.nHybridConsensusHeight.toInt + 1 else nHeight - 144
    let pindexFirst ← match pindexPrev.getAncestor nHeightFirst with
      | none => .error .nullDeref
      | some b => getSuitableBlock b
    let nextTarget ← computeTarget p pindexFirst pindexLast
    let powLimit := p.hybridConsensusPowLimit
    if nextTarget > powLimit then getCompact powLimit else getCompact nextTarget

/-- `GetNextWorkRequired(pindexPrev, pblock, params)`.
Source: `src/pow.cpp` `GetNextWorkRequired`
Kind: D
Fidelity: exact; `pindexPrev` is an entry, so `assert(pindexPrev != nullptr)` holds -/
def getNextWorkRequired (p : Params) (pindexPrev : BlockIndex) (pblockTime : UInt32) :
    Except Fault UInt32 :=
  -- special rule for regtest: we never retarget
  if p.fPowNoRetargeting then .ok pindexPrev.nBits
  else if isHybridConsensusForkEnabled p pindexPrev.nHeight then
    getNextCashWorkRequired p pindexPrev pblockTime
  else getNextLegacyWorkRequired p pindexPrev pblockTime

end BwsCoin.Pow
