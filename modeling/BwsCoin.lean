import BwsCoin.Basic
import BwsCoin.Lib.BinaryTree
import BwsCoin.Lib.SortedKV
import BwsCoin.Lib.KeyedReplay
import BwsCoin.Lib.RootedChain
import BwsCoin.Lib.ByteCodec
import BwsCoin.Lib.ByteReader
import BwsCoin.Lib.CString
import BwsCoin.Lib.Stack
import BwsCoin.Lib.ComparatorMap
import BwsCoin.Lib.SwapSort
import BwsCoin.Lib.MerkleTree
import BwsCoin.Serialize.Serialize
import BwsCoin.Chain.StakeChain
import BwsCoin.Chain.Skip
import BwsCoin.Chain.ActiveChain
import BwsCoin.Chain.ActiveChainSpec
import BwsCoin.Consensus.Params
import BwsCoin.Stake.ParentStack
import BwsCoin.Stake.Treap
import BwsCoin.Stake.TreapSpec
import BwsCoin.Stake.TreapWalk
import BwsCoin.Stake.TreapRuns
import BwsCoin.Stake.Prng
import BwsCoin.Stake.StakeNode
import BwsCoin.Stake.StakeNodeSpec
import BwsCoin.Stake.ConnectSpec
import BwsCoin.Stake.Invariant
import BwsCoin.Stake.RoundTrip
import BwsCoin.Pow.Arith
import BwsCoin.Pow.Retarget
import BwsCoin.Pow.RetargetSpec
import BwsCoin.Script.Script
import BwsCoin.Script.Standard
import BwsCoin.Stake.StakeTx
import BwsCoin.Script.Classify
import BwsCoin.Script.ScriptNum
import BwsCoin.Primitives.Transaction
import BwsCoin.Primitives.TransactionSpec
import BwsCoin.Consensus.Merkle
import BwsCoin.Consensus.MerkleSpec
import BwsCoin.MerkleBlock.PartialMerkleTree
import BwsCoin.MerkleBlock.PartialMerkleTreeSpec
import BwsCoin.Coins.Coins
import BwsCoin.Stake.StakeData
import BwsCoin.Primitives.Block
import BwsCoin.Primitives.BlockSpec
import BwsCoin.Chain.BlockIndex
import BwsCoin.Chain.BlockIndexSpec
import BwsCoin.Stake.StakeDataSpec
import BwsCoin.Policy.Dust
import BwsCoin.Stake.Remuneration
import BwsCoin.Stake.RemunerationSpec
import BwsCoin.Stake.RemunerationFees
import BwsCoin.Pow.StakeDifficulty
import BwsCoin.Pow.StakeDifficultySpec
import BwsCoin.Stake.StakeVersion
import BwsCoin.Consensus.TxVerify
import BwsCoin.Consensus.TxVerifySpec
import BwsCoin.Consensus.BuyTicketSpec
import BwsCoin.Validation.StakeNodeCache
import BwsCoin.Validation.StakeNodeCacheSpec
import BwsCoin.Validation.StakeHeights
import BwsCoin.Wallet.Revoke
import BwsCoin.Mining.Miner
