import BwsCoin.Primitives.Block

/-!
# Block index entries

`CBlockIndex` of `src/chain.h` holds the header fields of a block, copied from its
`CBlockHeader`, with a pointer to the entry of its predecessor and where its data is stored.
`CDiskBlockIndex` is the record the block tree database keeps of an entry: the predecessor's hash
stands in the pointer's place, the storage fields are `VARINT`s, and the header fields follow as
`CBlockHeader` writes them. `CBlockTreeDB::LoadBlockIndexGuts` copies a record read back into a
fresh entry.

The header fields are copied by hand in the constructor from a header, in `GetBlockHeader`, in
`CDiskBlockIndex::GetBlockHash` and in `LoadBlockIndexGuts`; each copy is its own definition here.
-/

namespace BwsCoin.Chain

open Serialize ByteReader Stake Primitives

/-- `std::numeric_limits<int>::max()`. Source: `src/serialize.h` `ReadVarInt`. Kind: D -/
def intMax : Nat := 2 ^ 31 - 1

/-- `std::numeric_limits<unsigned int>::max()`. Source: `src/serialize.h` `ReadVarInt`. Kind: D -/
def uintMax : Nat := 2 ^ 32 - 1

/-- `BLOCK_HAVE_DATA`. Source: `src/chain.h` `enum BlockStatus`. Kind: D -/
def blockHaveData : UInt32 := 8

/-- `BLOCK_HAVE_UNDO`. Source: `src/chain.h` `enum BlockStatus`. Kind: D -/
def blockHaveUndo : UInt32 := 16

/-- `CBlockIndex`, with the pointer `pprev` as the hash its entry gives, `pprev->GetBlockHash()`.
Source: `src/chain.h` `class CBlockIndex`
Kind: D
Fidelity: the pointer `pprev` is modelled by what the modelled functions read of it, its entry's
hash; the fields kept in memory only (`pskip`, `nChainWork`, `nChainTx`, `nSequenceId`,
`nTimeMax`, the stake node and ticket lists) and `phashBlock` are left out, as none of the
modelled functions reads them; the nine stake fields are grouped as `StakeFields`, and each copy of
the source copies all nine -/
structure CBlockIndex where
  pprev : Option Uint256
  nHeight : Int32
  nFile : Int32
  nDataPos : UInt32
  nUndoPos : UInt32
  nTx : UInt32
  nStatus : UInt32
  nVersion : Int32
  hashMerkleRoot : Uint256
  nTime : UInt32
  nBits : UInt32
  nNonce : UInt32
  stake : StakeFields
  powMsgHistoryId : MsgId
  powMsgId : MsgId
  deriving DecidableEq, Repr

namespace CBlockIndex

/-- `CBlockIndex()`: `SetNull`. Source: `src/chain.h` `CBlockIndex::SetNull`. Kind: D -/
def null : CBlockIndex :=
  ⟨none, 0, 0, 0, 0, 0, 0, 0, Uint256.zero, 0, 0, 0, StakeFields.null, MsgId.zero, MsgId.zero⟩

/-- `CBlockIndex(const CBlockHeader& block)`: `SetNull`, then the header fields, the ids by
`strncpy` from the arrays of `block`.
Source: `src/chain.h` `CBlockIndex::CBlockIndex(const CBlockHeader&)`
Kind: D -/
def ofHeader (block : CBlockHeader) : CBlockIndex :=
  { null with
    nVersion := block.nVersion
    hashMerkleRoot := block.hashMerkleRoot
    nTime := block.nTime
    nBits := block.nBits
    nNonce := block.nNonce
    stake := block.stake
    powMsgHistoryId := MsgId.strncpy block.powMsgHistoryId.data
    powMsgId := MsgId.strncpy block.powMsgId.data }

/-- `CBlockIndex::GetBlockHeader`: a header with the entry's fields, and the predecessor's hash
when there is a predecessor.
Source: `src/chain.h` `CBlockIndex::GetBlockHeader`
Kind: D -/
def getBlockHeader (i : CBlockIndex) : CBlockHeader :=
  { CBlockHeader.null with
    nVersion := i.nVersion
    hashPrevBlock := i.pprev.getD CBlockHeader.null.hashPrevBlock
    hashMerkleRoot := i.hashMerkleRoot
    nTime := i.nTime
    nBits := i.nBits
    nNonce := i.nNonce
    stake := i.stake
    powMsgHistoryId := MsgId.strncpy i.powMsgHistoryId.data
    powMsgId := MsgId.strncpy i.powMsgId.data }

/-- `CBlockIndex::LotteryIV`: the hash of the entry's header, which seeds the ticket lottery.
Source: `src/chain.cpp` `CBlockIndex::LotteryIV`
Kind: D -/
def lotteryIV (hashers : HeaderHashers) (i : CBlockIndex) : Except Fault Uint256 :=
  i.getBlockHeader.getHash hashers

end CBlockIndex

/-- `CDiskBlockIndex`: an entry, with the hash of its predecessor.
Source: `src/chain.h` `class CDiskBlockIndex`
Kind: D -/
structure CDiskBlockIndex where
  index : CBlockIndex
  hashPrev : Uint256
  deriving DecidableEq, Repr

namespace CDiskBlockIndex

/-- `CDiskBlockIndex(const CBlockIndex* pindex)`: a copy of the entry, and its predecessor's hash
or the null hash.
Source: `src/chain.h` `CDiskBlockIndex::CDiskBlockIndex(const CBlockIndex*)`
Kind: D -/
def ofIndex (pindex : CBlockIndex) : CDiskBlockIndex := ⟨pindex, pindex.pprev.getD Uint256.zero⟩

/-- `if (cond) READWRITE(VARINT(obj))` writing. Source: `src/chain.h`. Kind: D -/
def writeVarIntIf (cond : Bool) (obj : Int) : List UInt8 := if cond then writeVarInt obj else []

/-- `if (cond) READWRITE(VARINT(obj))` reading into a field that holds `obj` before the read.
Source: `src/chain.h` `CDiskBlockIndex::SerializationOp`
Kind: D -/
def readVarIntIf (cond : Bool) (maxI obj : Nat) : Reader Nat :=
  if cond then readVarInt maxI else pure obj

/-- `CDiskBlockIndex::SerializationOp` writing, to a stream of version `nClientVersion` whose type
has `SER_GETHASH` exactly when `fGetHash`: the storage fields as `VARINT`s, then the header fields
as `CBlockHeader` writes them, with `hashPrev`.
Source: `src/chain.h` `CDiskBlockIndex::SerializationOp`
Kind: D -/
def serialize (fGetHash : Bool) (nClientVersion : Int32) (d : CDiskBlockIndex) :
    Except Fault (List UInt8) := do
  let i := d.index
  let strMsgHistoryId ← i.powMsgHistoryId.toString
  let strMsgId ← i.powMsgId.toString
  pure (writeVarIntIf (!fGetHash) nClientVersion.toInt ++ writeVarInt i.nHeight.toInt ++
    writeVarInt i.nStatus.toNat ++ writeVarInt i.nTx.toNat ++
    writeVarIntIf (i.nStatus &&& (blockHaveData ||| blockHaveUndo) != 0) i.nFile.toInt ++
    writeVarIntIf (i.nStatus &&& blockHaveData != 0) i.nDataPos.toNat ++
    writeVarIntIf (i.nStatus &&& blockHaveUndo != 0) i.nUndoPos.toNat ++
    writeHeader i.nVersion d.hashPrev i.hashMerkleRoot i.nTime i.nBits i.nNonce i.stake
      strMsgHistoryId strMsgId)

/-- `CDiskBlockIndex::SerializationOp` reading into `CDiskBlockIndex()`, on a network whose
`nMinimumStakeDiff` is given: the client version is read and dropped, a storage field the status
does not name keeps its value of `SetNull`, and the header fields are read as `CBlockHeader`
reads them.
Source: `src/chain.h` `CDiskBlockIndex::SerializationOp`
Kind: D
Fidelity: the header fields are read by `CBlockHeader.unserialize`, which reads the same fields in
the same order, sets the same pre-fork defaults and `strncpy`s the ids alike (it also zeroes the
id arrays before the fork, which the `strncpy` overwrites) -/
def unserialize (nMinimumStakeDiff : Int64) (fGetHash : Bool) : Reader CDiskBlockIndex := do
  let _nVersion ← readVarIntIf (!fGetHash) intMax 0
  let nHeight ← readVarInt intMax
  let nStatus ← readVarInt uintMax
  let nTx ← readVarInt uintMax
  let nStatus := UInt32.ofNat nStatus
  let nFile ← readVarIntIf (nStatus &&& (blockHaveData ||| blockHaveUndo) != 0) intMax 0
  let nDataPos ← readVarIntIf (nStatus &&& blockHaveData != 0) uintMax 0
  let nUndoPos ← readVarIntIf (nStatus &&& blockHaveUndo != 0) uintMax 0
  let block ← CBlockHeader.unserialize nMinimumStakeDiff
  pure ⟨{ CBlockIndex.null with
      nHeight := Int32.ofNat nHeight
      nStatus := nStatus
      nTx := UInt32.ofNat nTx
      nFile := Int32.ofNat nFile
      nDataPos := UInt32.ofNat nDataPos
      nUndoPos := UInt32.ofNat nUndoPos
      nVersion := block.nVersion
      hashMerkleRoot := block.hashMerkleRoot
      nTime := block.nTime
      nBits := block.nBits
      nNonce := block.nNonce
      stake := block.stake
      powMsgHistoryId := block.powMsgHistoryId
      powMsgId := block.powMsgId }, block.hashPrevBlock⟩

/-- `CDiskBlockIndex::GetBlockHash`: the hash of a header built from the record's fields, with
`hashPrev`.
Source: `src/chain.h` `CDiskBlockIndex::GetBlockHash`
Kind: D -/
def getBlockHash (hashers : HeaderHashers) (d : CDiskBlockIndex) : Except Fault Uint256 :=
  let block : CBlockHeader :=
    { CBlockHeader.null with
      nVersion := d.index.nVersion
      hashPrevBlock := d.hashPrev
      hashMerkleRoot := d.index.hashMerkleRoot
      nTime := d.index.nTime
      nBits := d.index.nBits
      nNonce := d.index.nNonce
      stake := d.index.stake
      powMsgHistoryId := MsgId.strncpy d.index.powMsgHistoryId.data
      powMsgId := MsgId.strncpy d.index.powMsgId.data }
  block.getHash hashers

/-- The entry `CBlockTreeDB::LoadBlockIndexGuts` makes of a record read back: a fresh entry
(`InsertBlockIndex` of a hash not met before), its predecessor the entry of `hashPrev` (none for
the null hash), and the record's fields copied.
Source: `src/txdb.cpp` `CBlockTreeDB::LoadBlockIndexGuts`; `src/validation.cpp`
`InsertBlockIndex`
Kind: D
Fidelity: the entry of `hashPrev`, whose hash is the key it is stored under, is modelled by that
hash; the proof-of-work check that follows the copy is left out -/
def loadBlockIndexGuts (diskindex : CDiskBlockIndex) : CBlockIndex :=
  { CBlockIndex.null with
    pprev := if diskindex.hashPrev = Uint256.zero then none else some diskindex.hashPrev
    nHeight := diskindex.index.nHeight
    nFile := diskindex.index.nFile
    nDataPos := diskindex.index.nDataPos
    nUndoPos := diskindex.index.nUndoPos
    nVersion := diskindex.index.nVersion
    hashMerkleRoot := diskindex.index.hashMerkleRoot
    nTime := diskindex.index.nTime
    nBits := diskindex.index.nBits
    nNonce := diskindex.index.nNonce
    stake := diskindex.index.stake
    powMsgHistoryId := MsgId.strncpy diskindex.index.powMsgHistoryId.data
    powMsgId := MsgId.strncpy diskindex.index.powMsgId.data
    nStatus := diskindex.index.nStatus
    nTx := diskindex.index.nTx }

end CDiskBlockIndex

end BwsCoin.Chain
