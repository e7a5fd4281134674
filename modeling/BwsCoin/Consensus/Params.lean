import BwsCoin.Basic

/-!
# Consensus parameters

The fields of `Consensus::Params` (`src/consensus/params.h`) that the modelled code reads, with
the source's integer types, and the three shipped parameter sets of `src/chainparams.cpp`.
Every other field of the source's structure is read by no modelled function and is left out.

On all three networks `nStakeValidationHeight` is `2147483647`, so the lottery of the stake
node starts at height `2^31 - 2`; `nStakeEnabledHeight` is `613`, `118` and `2000`. The block
time is the default `BLOCK_TIME` of ten minutes; the difficulty adjustment interval is `2016`
blocks on main and regtest and `6` on testnet. A ticket's contributions must allow at least
`2^15 = 32768` satoshis of revocation fees in total (`1LL << 15`), and any vote fees.
-/

namespace BwsCoin.Consensus

/-- The consensus parameters the model reads.
Source: `src/consensus/params.h` `Consensus::Params`
Kind: D
Fidelity: exact on the fields kept -/
structure Params where
  /-- `nTicketPoolSize` (`uint16_t`). -/
  nTicketPoolSize : UInt16
  /-- `nTicketsPerBlock` (`uint16_t`). -/
  nTicketsPerBlock : UInt16
  /-- `nTicketMaturity` (`uint16_t`). -/
  nTicketMaturity : UInt16
  /-- `nTicketExpiry` (`uint32_t`). -/
  nTicketExpiry : UInt32
  /-- `nStakeEnabledHeight` (`int32_t`). -/
  nStakeEnabledHeight : Int32
  /-- `nStakeValidationHeight` (`int32_t`). -/
  nStakeValidationHeight : Int32
  /-- `UintToArith256(powLimit)`: pow.cpp reads the limit only through `UintToArith256`. -/
  powLimit : BitVec 256
  /-- `nPowTargetSpacing` (`int64_t`), `BLOCK_TIME`. -/
  nPowTargetSpacing : Int64
  /-- `nPowTargetTimespan` (`int64_t`). -/
  nPowTargetTimespan : Int64
  /-- `fPowAllowMinDifficultyBlocks`. -/
  fPowAllowMinDifficultyBlocks : Bool
  /-- `fPowNoRetargeting`. -/
  fPowNoRetargeting : Bool
  /-- `nHybridConsensusHeight` (`int`). -/
  nHybridConsensusHeight : Int32
  /-- `UintToArith256(hybridConsensusPowLimit)`. -/
  hybridConsensusPowLimit : BitVec 256
  /-- `nHybridConsensusInitialDifficulty` (`uint32_t`), a compact target. -/
  nHybridConsensusInitialDifficulty : UInt32
  /-- `nHybridConsensusInitialDifficultyBlockCount` (`int`). -/
  nHybridConsensusInitialDifficultyBlockCount : Int32
  /-- `nMinimumTotalVoteFeeLimit` (`int64_t`): the least sum of a ticket's vote fee limits. -/
  nMinimumTotalVoteFeeLimit : Int64
  /-- `nMinimumTotalRevocationFeeLimit` (`int64_t`): the least sum of its revocation fee limits. -/
  nMinimumTotalRevocationFeeLimit : Int64

/-- `DifficultyAdjustmentInterval()`: `nPowTargetTimespan / nPowTargetSpacing`.
Source: `src/consensus/params.h` `Consensus::Params::DifficultyAdjustmentInterval`
Kind: D -/
def Params.difficultyAdjustmentInterval (p : Params) : Int64 :=
  p.nPowTargetTimespan / p.nPowTargetSpacing

/-- `CMainParams`: pool size `8192`, maturity `256`, `nTicketExpiry = 5 * nTicketPoolSize`,
`nStakeEnabledHeight = nHybridConsensusHeight + 2 * nTicketMaturity = 101 + 512`; the PoW
limits are `MAINNET_CONSENSUS_POW_LIMIT` and `MAINNET_HYBRID_CONSENSUS_POW_LIMIT`.
Source: `src/chainparams.cpp` `CMainParams::CMainParams`
Kind: D -/
def main : Params where
  nTicketPoolSize := 8192
  nTicketsPerBlock := 5
  nTicketMaturity := 256
  nTicketExpiry := 5 * 8192
  nStakeEnabledHeight := 101 + 2 * 256
  nStakeValidationHeight := 2147483647
  powLimit := 0x000003e75d000000000000000000000000000000000000000000000000000000
  nPowTargetSpacing := 10 * 60
  nPowTargetTimespan := 14 * 24 * 60 * 60
  fPowAllowMinDifficultyBlocks := false
  fPowNoRetargeting := false
  nHybridConsensusHeight := 101
  hybridConsensusPowLimit := 0x000003e75d000000000000000000000000000000000000000000000000000000
  nHybridConsensusInitialDifficulty := 0x1e03e75d
  nHybridConsensusInitialDifficultyBlockCount := 10
  nMinimumTotalVoteFeeLimit := 0
  nMinimumTotalRevocationFeeLimit := 32768

/-- `CTestNetParams`: pool size `1024`, maturity `16`, `nTicketExpiry = 6 * nTicketPoolSize`,
`nStakeEnabledHeight = nHybridConsensusHeight + nTicketMaturity + 1 = 101 + 16 + 1`.
Source: `src/chainparams.cpp` `CTestNetParams::CTestNetParams`
Kind: D -/
def testnet : Params where
  nTicketPoolSize := 1024
  nTicketsPerBlock := 5
  nTicketMaturity := 16
  nTicketExpiry := 6 * 1024
  nStakeEnabledHeight := 101 + 16 + 1
  nStakeValidationHeight := 2147483647
  powLimit := 0x07ffffffffffffffffffffffffffffffffffffffffffffffffffffffffffffff
  nPowTargetSpacing := 10 * 60
  nPowTargetTimespan := 60 * 60
  fPowAllowMinDifficultyBlocks := false
  fPowNoRetargeting := false
  nHybridConsensusHeight := 101
  hybridConsensusPowLimit := 0x07ffffffffffffffffffffffffffffffffffffffffffffffffffffffffffffff
  nHybridConsensusInitialDifficulty := 0x2007ffff
  nHybridConsensusInitialDifficultyBlockCount := 10
  nMinimumTotalVoteFeeLimit := 0
  nMinimumTotalRevocationFeeLimit := 32768

/-- `CRegTestParams`: pool size `64`, maturity `8`, `nTicketExpiry = 3 * nTicketPoolSize`,
`nStakeEnabledHeight = 2000`.
Source: `src/chainparams.cpp` `CRegTestParams::CRegTestParams`
Kind: D -/
def regtest : Params where
  nTicketPoolSize := 64
  nTicketsPerBlock := 5
  nTicketMaturity := 8
  nTicketExpiry := 3 * 64
  nStakeEnabledHeight := 2000
  nStakeValidationHeight := 2147483647
  powLimit := 0x7fffffffffffffffffffffffffffffffffffffffffffffffffffffffffffffff
  nPowTargetSpacing := 10 * 60
  nPowTargetTimespan := 14 * 24 * 60 * 60
  fPowAllowMinDifficultyBlocks := true
  fPowNoRetargeting := true
  nHybridConsensusHeight := 1500
  hybridConsensusPowLimit := 0x7fffffffffffffffffffffffffffffffffffffffffffffffffffffffffffffff
  nHybridConsensusInitialDifficulty := 0x207fffff
  nHybridConsensusInitialDifficultyBlockCount := 10
  nMinimumTotalVoteFeeLimit := 0
  nMinimumTotalRevocationFeeLimit := 32768

/-- `Consensus::Params` with the further fields that the stake difficulty, the stake version
tally and the coinbase whitelist read.
Source: `src/consensus/params.h` `Consensus::Params`
Kind: D
Fidelity: exact on the fields kept -/
structure StakeParams extends Params where
  /-- `nSubsidyHalvingInterval` (`int`). -/
  nSubsidyHalvingInterval : Int32
  /-- `nTotalBlockSubsidy` (`int`), in whole coins. -/
  nTotalBlockSubsidy : Int32
  /-- `nCoinbaseWhitelistExpiration` (`int`): blocks after `nStakeValidationHeight` until the
  coinbase address whitelist lapses. -/
  nCoinbaseWhitelistExpiration : Int32
  /-- `nMinimumStakeDiff` (`int64_t`): the least ticket price. -/
  nMinimumStakeDiff : Int64
  /-- `nStakeDiffWindowSize` (`int64_t`): the blocks between two ticket price changes. -/
  nStakeDiffWindowSize : Int64
  /-- `nStakeVersionInterval` (`int64_t`). -/
  nStakeVersionInterval : Int64
  /-- `nMaxFreshStakePerBlock` (`uint8_t`). -/
  nMaxFreshStakePerBlock : UInt8
  /-- `nStakeMajorityMultiplier` (`int32_t`). -/
  nStakeMajorityMultiplier : Int32
  /-- `nStakeMajorityDivisor` (`int32_t`). -/
  nStakeMajorityDivisor : Int32

/-- `CMainParams`: a halving every `210000` blocks of a `1500`-coin subsidy, the whitelist for
`144` blocks, a least ticket price of `2` coins, a price window of `144` blocks and a version
interval of `144 * 2 * 7`, at most `4 * nTicketsPerBlock` new tickets a block, a `3/4` majority.
Source: `src/chainparams.cpp` `CMainParams::CMainParams`
Kind: D -/
def StakeParams.main : StakeParams where
  toParams := Consensus.main
  nSubsidyHalvingInterval := 210000
  nTotalBlockSubsidy := 1500
  nCoinbaseWhitelistExpiration := 144
  nMinimumStakeDiff := 2 * 100000000
  nStakeDiffWindowSize := 144
  nStakeVersionInterval := 144 * 2 * 7
  nMaxFreshStakePerBlock := 4 * 5
  nStakeMajorityMultiplier := 3
  nStakeMajorityDivisor := 4

/-- `CTestNetParams`: as main, with a least ticket price of `COIN * 0.2`.
Source: `src/chainparams.cpp` `CTestNetParams::CTestNetParams`
Kind: D -/
def StakeParams.testnet : StakeParams where
  toParams := Consensus.testnet
  nSubsidyHalvingInterval := 210000
  nTotalBlockSubsidy := 1500
  nCoinbaseWhitelistExpiration := 144
  nMinimumStakeDiff := 20000000
  nStakeDiffWindowSize := 144
  nStakeVersionInterval := 144 * 2 * 7
  nMaxFreshStakePerBlock := 4 * 5
  nStakeMajorityMultiplier := 3
  nStakeMajorityDivisor := 4

/-- `CRegTestParams`: a halving every `150` blocks, the whitelist for one block, a least ticket
price of `20000`, a price window of `8` blocks and a version interval of `6 * 24`.
Source: `src/chainparams.cpp` `CRegTestParams::CRegTestParams`
Kind: D -/
def StakeParams.regtest : StakeParams where
  toParams := Consensus.regtest
  nSubsidyHalvingInterval := 150
  nTotalBlockSubsidy := 1500
  nCoinbaseWhitelistExpiration := 1
  nMinimumStakeDiff := 20000
  nStakeDiffWindowSize := 8
  nStakeVersionInterval := 6 * 24
  nMaxFreshStakePerBlock := 4 * 5
  nStakeMajorityMultiplier := 3
  nStakeMajorityDivisor := 4

end BwsCoin.Consensus
