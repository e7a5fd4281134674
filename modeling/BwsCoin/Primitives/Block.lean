import BwsCoin.Serialize.Serialize
import BwsCoin.Lib.CString
import BwsCoin.Stake.StakeData

/-!
# Block headers

The header of `src/primitives/block.h`: the proof-of-work fields, the nine stake fields that are
serialized only once `nVersion` has the `HARDFORK_VERSION_BIT`, and two message ids held in
`char[MSG_ID_SIZE]` arrays. The serialization writes each id as the `std::string` of its C
string; the reader reads two strings and `strncpy`s them into the arrays, and without the
version bit sets the stake fields to their pre-fork defaults (`SetReadStakeDefaultBeforeFork`).
`GetHash` hashes the serialized header, with `CShake256` after the fork and double SHA-256
before.
-/

namespace BwsCoin.Primitives

open Serialize ByteReader Stake

/-! ## Message ids -/

/-- `CBlockHeader::MSG_ID_SIZE`. Source: `src/primitives/block.h`. Kind: D -/
def msgIdSize : Nat := 100

/-- A `char[MSG_ID_SIZE]` array.
Source: `src/primitives/block.h` `CBlockHeader::powMsgHistoryId`, `CBlockHeader::powMsgId`
Kind: D -/
@[ext] structure MsgId where
  data : List UInt8
  length_data : data.length = msgIdSize
  deriving DecidableEq, Repr

namespace MsgId

/-- `std::fill(id, id + MSG_ID_SIZE, 0)`. Source: `src/primitives/block.h`. Kind: D -/
def zero : MsgId := ⟨List.replicate msgIdSize 0, List.length_replicate⟩

/-- `strncpy(id, src, MSG_ID_SIZE)`.
Source: `src/primitives/block.h` `CBlockHeader::SerializationOp`
Kind: D -/
def strncpy (src : List UInt8) : MsgId :=
  ⟨CString.strncpy msgIdSize src, CString.length_strncpy msgIdSize src⟩

/-- `std::string str = id`: the characters before the first NUL. An array with no NUL is read
past its end, which is undefined.
Source: `src/primitives/block.h` `CBlockHeader::SerializationOp`
Kind: D -/
def toString (m : MsgId) : Except Fault (List UInt8) :=
  if (0 : UInt8) ∈ m.data then .ok (CString.chars m.data)
  else .error (.undefined "strlen past the end of a char[MSG_ID_SIZE]")

end MsgId

/-! ## Headers -/

/-- `HARDFORK_VERSION_BIT`: `0x80000000`, which as an `int` is the sign bit.
Source: `src/primitives/block.h` `HARDFORK_VERSION_BIT`
Kind: D -/
def hardforkVersionBit : Int32 := Int32.ofBitVec 0x80000000#32

/-- `nVersion & HARDFORK_VERSION_BIT`, as a condition.
Source: `src/primitives/block.h` `CBlockHeader::SerializationOp`
Kind: D -/
def hasHardforkBit (nVersion : Int32) : Bool := nVersion &&& hardforkVersionBit != 0

/-- The nine stake fields of a header, which the serialization writes only after the fork.
Source: `src/primitives/block.h` `CBlockHeader`
Kind: D
Fidelity: the source lists them among the header's members; each copy it makes of a header
(`CBlockIndex(const CBlockHeader&)`, `CBlockIndex::GetBlockHeader`, `CDiskBlockIndex`) copies
all nine -/
structure StakeFields where
  nStakeDifficulty : Int64
  nVoteBits : VoteBits
  nTicketPoolSize : UInt32
  ticketLotteryState : Uint48
  nVoters : UInt16
  nFreshStake : UInt8
  nRevocations : UInt8
  extraData : Uint256
  nStakeVersion : UInt32
  deriving DecidableEq, Repr

namespace StakeFields

/-- The stake fields of `CBlockHeader::SetNull`. Source: `src/primitives/block.h`. Kind: D -/
def null : StakeFields := ⟨0, VoteBits.rttAccepted, 0, Uint48.zero, 0, 0, 0, Uint256.zero, 0⟩

/-- `SetReadStakeDefaultBeforeFork`: the stake difficulty is the network's minimum.
Source: `src/primitives/block.cpp` `CBlockHeader::SetReadStakeDefaultBeforeFork`
Kind: D -/
def readDefault (nMinimumStakeDiff : Int64) : StakeFields :=
  ⟨nMinimumStakeDiff, VoteBits.rttAccepted, 0, Uint48.zero, 0, 0, 0, Uint256.zero, 0⟩

/-- The stake fields written, in the order of `SerializationOp`.
Source: `src/primitives/block.h` `CBlockHeader::SerializationOp`
Kind: D -/
def serialize (s : StakeFields) : List UInt8 :=
  serializeInt64 s.nStakeDifficulty ++ serWritedata16 s.nVoteBits.vb ++
    serWritedata32 s.nTicketPoolSize ++ serializeUint48 s.ticketLotteryState ++
    serWritedata16 s.nVoters ++ serWritedata8 s.nFreshStake ++ serWritedata8 s.nRevocations ++
    serializeUint256 s.extraData ++ serWritedata32 s.nStakeVersion

/-- The stake fields read. Source: `src/primitives/block.h` `CBlockHeader::SerializationOp`. Kind: D -/
def unserialize : Reader StakeFields := do
  let nStakeDifficulty ← unserializeInt64
  let vb ← serReaddata16
  let nTicketPoolSize ← serReaddata32
  let ticketLotteryState ← unserializeUint48
  let nVoters ← serReaddata16
  let nFreshStake ← serReaddata8
  let nRevocations ← serReaddata8
  let extraData ← unserializeUint256
  let nStakeVersion ← serReaddata32
  pure ⟨nStakeDifficulty, ⟨vb⟩, nTicketPoolSize, ticketLotteryState, nVoters, nFreshStake,
    nRevocations, extraData, nStakeVersion⟩

/-- The stake block of `SerializationOp` reading, for a header of version `nVersion`: the fields
after the fork, the defaults of `SetReadStakeDefaultBeforeFork` before.
Source: `src/primitives/block.h` `CBlockHeader::SerializationOp`; `src/primitives/block.cpp`
`CBlockHeader::SetReadStakeDefaultBeforeFork`
Kind: D -/
def readFor (nMinimumStakeDiff : Int64) (nVersion : Int32) : Reader StakeFields :=
  if hasHardforkBit nVersion then unserialize else pure (readDefault nMinimumStakeDiff)

end StakeFields

/-- The header fields as `SerializationOp` writes them, with the two strings it made of the message
ids; `CDiskBlockIndex::SerializationOp` writes the same fields in the same order, with `hashPrev`
in the place of `hashPrevBlock`.
Source: `src/primitives/block.h` `CBlockHeader::SerializationOp`; `src/chain.h`
`CDiskBlockIndex::SerializationOp`
Kind: D -/
def writeHeader (nVersion : Int32) (hashPrevBlock hashMerkleRoot : Uint256)
    (nTime nBits nNonce : UInt32) (stake : StakeFields) (strMsgHistoryId strMsgId : List UInt8) :
    List UInt8 :=
  serializeInt32 nVersion ++ serializeUint256 hashPrevBlock ++ serializeUint256 hashMerkleRoot ++
    serWritedata32 nTime ++ serWritedata32 nBits ++ serWritedata32 nNonce ++
    (if hasHardforkBit nVersion then stake.serialize else []) ++
    serializeBytes strMsgHistoryId ++ serializeBytes strMsgId

/-- `CBlockHeader`.
Source: `src/primitives/block.h` `class CBlockHeader`
Kind: D -/
structure CBlockHeader where
  nVersion : Int32
  hashPrevBlock : Uint256
  hashMerkleRoot : Uint256
  nTime : UInt32
  nBits : UInt32
  nNonce : UInt32
  stake : StakeFields
  powMsgHistoryId : MsgId
  powMsgId : MsgId
  deriving DecidableEq, Repr

namespace CBlockHeader

/-- `CBlockHeader()`: `SetNull`. Source: `src/primitives/block.h` `CBlockHeader::SetNull`. Kind: D -/
def null : CBlockHeader :=
  ⟨0, Uint256.zero, Uint256.zero, 0, 0, 0, StakeFields.null, MsgId.zero, MsgId.zero⟩

/-- `CBlockHeader::SerializationOp` writing: the ids become `std::string`s of their C strings.
Source: `src/primitives/block.h` `CBlockHeader::SerializationOp`
Kind: D -/
def serialize (h : CBlockHeader) : Except Fault (List UInt8) := do
  let strMsgHistoryId ← h.powMsgHistoryId.toString
  let strMsgId ← h.powMsgId.toString
  pure (writeHeader h.nVersion h.hashPrevBlock h.hashMerkleRoot h.nTime h.nBits h.nNonce h.stake
    strMsgHistoryId strMsgId)

/-- `CBlockHeader::SerializationOp` reading, on a network whose `nMinimumStakeDiff` is given:
the ids are read as strings and `strncpy`d into the arrays (over the zeros
`SetReadStakeDefaultBeforeFork` leaves there, which `strncpy` overwrites).
Source: `src/primitives/block.h` `CBlockHeader::SerializationOp`; `src/primitives/block.cpp`
`CBlockHeader::SetReadStakeDefaultBeforeFork`
Kind: D -/
def unserialize (nMinimumStakeDiff : Int64) : Reader CBlockHeader := do
  let nVersion ← unserializeInt32
  let hashPrevBlock ← unserializeUint256
  let hashMerkleRoot ← unserializeUint256
  let nTime ← serReaddata32
  let nBits ← serReaddata32
  let nNonce ← serReaddata32
  let stake ← StakeFields.readFor nMinimumStakeDiff nVersion
  let strMsgHistoryId ← unserializeBytes
  let strMsgId ← unserializeBytes
  pure ⟨nVersion, hashPrevBlock, hashMerkleRoot, nTime, nBits, nNonce, stake,
    MsgId.strncpy strMsgHistoryId, MsgId.strncpy strMsgId⟩

end CBlockHeader

/-- The two writers `GetHash` hashes the header with, as functions of the bytes written.
Source: `src/hash.h` `CHashWriter` (double SHA-256), `CBlockHashWriter` (`CShake256`)
Kind: D
Fidelity: abstract (the hash functions are parameters) -/
structure HeaderHashers where
  sha256d : List UInt8 → Uint256
  shake256 : List UInt8 → Uint256

/-- `CBlockHeader::GetHash`: the hash of the serialized header, with `CShake256` once the
version has the fork bit.
Source: `src/primitives/block.cpp` `CBlockHeader::GetHash`
Kind: D -/
def CBlockHeader.getHash (hashers : HeaderHashers) (h : CBlockHeader) : Except Fault Uint256 := do
  let bytes ← h.serialize
  pure (if hasHardforkBit h.nVersion then hashers.shake256 bytes else hashers.sha256d bytes)

end BwsCoin.Primitives
