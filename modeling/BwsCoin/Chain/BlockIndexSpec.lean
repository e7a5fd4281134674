import BwsCoin.Chain.BlockIndex
import BwsCoin.Primitives.BlockSpec

/-!
# Block index entries reproduce their headers

An entry built from a header `h` and placed under the entry of `h`'s predecessor copies the header
fields by hand, and so do `GetBlockHeader`, `CDiskBlockIndex::GetBlockHash` and the reload of
`LoadBlockIndexGuts`. Each copy keeps every field; the ids are copied by `strncpy`, which keeps
their C strings, so every copy serializes to the bytes of `h`:

* `getBlockHeader_place`, `lotteryIV_place` — the header an entry gives back is `h` with its id
  arrays cut at their first NUL, and the lottery seed is `h`'s hash;
* `reads_unserialize_ofIndex` — the record written for an entry reads back as `reread`, with the
  storage fields as their `VARINT`s give them back;
* `diskBlockIndex_reproduces_header` — so the record read back has `h`'s hash, and the stake
  fields of `h` after the fork but the pre-fork defaults before it, whatever `h` held;
* `diskBlockIndex_reproduces_held_header` — a header the node can hold carries those defaults
  before the fork, and its record reads back with all of its stake fields;
* `lotteryIV_loadBlockIndexGuts` — the entry reloaded from the record seeds the lottery with
  `h`'s hash again.
-/

namespace BwsCoin.Chain

open Serialize ByteReader Stake Primitives

/-! ## Entries built from a header -/

namespace CBlockIndex

/-- The entry `CBlockIndex(h)` placed in the tree under the entry of `h`'s predecessor, with the
height and storage fields the tree gives it.
Source: `src/chain.h` `CBlockIndex::CBlockIndex(const CBlockHeader&)`; `src/validation.cpp`
`AddToBlockIndex`, `ReceivedBlockTransactions`
Kind: D -/
def place (h : CBlockHeader) (nHeight nFile : Int32) (nDataPos nUndoPos nTx nStatus : UInt32) :
    CBlockIndex :=
  { ofHeader h with
    pprev := some h.hashPrevBlock
    nHeight := nHeight
    nFile := nFile
    nDataPos := nDataPos
    nUndoPos := nUndoPos
    nTx := nTx
    nStatus := nStatus }

variable (h : CBlockHeader) (nHeight nFile : Int32) (nDataPos nUndoPos nTx nStatus : UInt32)

/-- **The header an entry gives back is the header it was built from**, with its id arrays cut
at their first NUL.
Source: `src/chain.h` `CBlockIndex::CBlockIndex(const CBlockHeader&)`,
`CBlockIndex::GetBlockHeader`
Kind: L -/
theorem getBlockHeader_place :
    (place h nHeight nFile nDataPos nUndoPos nTx nStatus).getBlockHeader =
      { h with
        powMsgHistoryId := MsgId.strncpy h.powMsgHistoryId.data
        powMsgId := MsgId.strncpy h.powMsgId.data } := by
  simp only [getBlockHeader, place, ofHeader, Option.getD_some, MsgId.strncpy_strncpy]

/-- **The lottery seed of an entry is the hash of its header.**
Source: `src/chain.cpp` `CBlockIndex::LotteryIV`
Kind: L -/
theorem lotteryIV_place (hashers : HeaderHashers) (ht : h.Terminated) :
    (place h nHeight nFile nDataPos nUndoPos nTx nStatus).lotteryIV hashers = h.getHash hashers := by
  rw [lotteryIV, getBlockHeader_place, CBlockHeader.getHash, CBlockHeader.getHash,
    CBlockHeader.serialize_strncpy_ids ht]

end CBlockIndex

/-! ## Records written and read back -/

namespace CDiskBlockIndex

/-- An optional `VARINT` reads back as the value written, or leaves the field as it was.
Source: `src/chain.h` `CDiskBlockIndex::SerializationOp` (`READWRITE(VARINT(...))` under a status bit)
Kind: L -/
theorem reads_readVarIntIf {cond : Bool} {maxI obj : Nat} {n : Int} (h : n ≤ maxI) :
    Reads (readVarIntIf cond maxI obj) (writeVarIntIf cond n)
      (if cond then varIntReadBack n else obj) := by
  unfold readVarIntIf writeVarIntIf
  split
  · exact reads_readVarInt_readBack h
  · exact Reads.pure obj

/-- An `int` is at most `INT_MAX`.
Source: none: infrastructure
Kind: L -/
theorem int32_toInt_le_intMax (x : Int32) : x.toInt ≤ intMax := by
  have := x.toInt_lt
  simp only [intMax]
  omega

/-- An `unsigned int` is at most `UINT_MAX`.
Source: none: infrastructure
Kind: L -/
theorem uint32_toNat_le_uintMax (x : UInt32) : x.toNat ≤ uintMax := by
  have := x.toNat_lt
  simp only [uintMax]
  omega

/-- An unsigned field reads back from its `VARINT` as itself.
Source: `src/chain.h` `CDiskBlockIndex::SerializationOp`; `src/serialize.h` `VARINT`
Kind: L -/
theorem reads_readVarInt_uint32 (x : UInt32) :
    Reads (readVarInt uintMax) (writeVarInt x.toNat) x.toNat :=
  (reads_readVarInt (Int.natCast_nonneg _) (Int.ofNat_le.2 (uint32_toNat_le_uintMax x))).of_eq
    rfl (Int.toNat_natCast _)

/-- The record a read of `d`'s serialization builds: the height and the storage fields the
status names as their `VARINT`s give them back, the others as `SetNull` leaves them, and the
header fields as `CBlockHeader.reread` reads them.
Source: `src/chain.h` `CDiskBlockIndex::SerializationOp`
Kind: D -/
def reread (m : Int64) (d : CDiskBlockIndex) : CDiskBlockIndex :=
  let i := d.index
  ⟨{ CBlockIndex.null with
      nHeight := Int32.ofNat (varIntReadBack i.nHeight.toInt)
      nStatus := i.nStatus
      nTx := i.nTx
      nFile := Int32.ofNat (if i.nStatus &&& (blockHaveData ||| blockHaveUndo) != 0 then
        varIntReadBack i.nFile.toInt else 0)
      nDataPos := UInt32.ofNat (if i.nStatus &&& blockHaveData != 0 then
        varIntReadBack i.nDataPos.toNat else 0)
      nUndoPos := UInt32.ofNat (if i.nStatus &&& blockHaveUndo != 0 then
        varIntReadBack i.nUndoPos.toNat else 0)
      nVersion := i.nVersion
      hashMerkleRoot := i.hashMerkleRoot
      nTime := i.nTime
      nBits := i.nBits
      nNonce := i.nNonce
      stake := readStake m i.nVersion i.stake
      powMsgHistoryId := MsgId.strncpy (CString.chars i.powMsgHistoryId.data)
      powMsgId := MsgId.strncpy (CString.chars i.powMsgId.data) }, d.hashPrev⟩

/-- **The record written for an entry whose ids end inside their arrays reads back**, as
`reread`.
Source: `src/chain.h` `CDiskBlockIndex::SerializationOp`
Kind: L -/
theorem reads_unserialize (m : Int64) (fGetHash : Bool) (nClientVersion : Int32)
    {d : CDiskBlockIndex} (ht₁ : d.index.powMsgHistoryId.Terminated)
    (ht₂ : d.index.powMsgId.Terminated) :
    ∃ bs, d.serialize fGetHash nClientVersion = .ok bs ∧
      Reads (unserialize m fGetHash) bs (d.reread m) := by
  rw [serialize, MsgId.toString_of_terminated ht₁, MsgId.toString_of_terminated ht₂]
  refine ⟨_, rfl, ?_⟩
  unfold unserialize
  simp only [List.append_assoc]
  refine (reads_readVarIntIf (int32_toInt_le_intMax nClientVersion)).bind ?_
  refine (reads_readVarInt_readBack (int32_toInt_le_intMax _)).bind ?_
  refine (reads_readVarInt_uint32 _).bind ?_
  refine (reads_readVarInt_uint32 _).bind ?_
  simp only [UInt32.ofNat_toNat]
  refine (reads_readVarIntIf (int32_toInt_le_intMax _)).bind ?_
  refine (reads_readVarIntIf (Int.ofNat_le.2 (uint32_toNat_le_uintMax _))).bind ?_
  refine (reads_readVarIntIf (Int.ofNat_le.2 (uint32_toNat_le_uintMax _))).bind ?_
  refine Reads.of_eq ((CBlockHeader.reads_unserialize_writeHeader m _ _ _ _ _ _ _ _ _
    (MsgId.length_chars_le_maxSize _) (MsgId.length_chars_le_maxSize _)).bind (Reads.pure _))
    (List.append_nil _) ?_
  simp only [reread]

/-- The hash of a record read back is that of the header its entry's fields make.
Source: `src/chain.h` `CDiskBlockIndex::GetBlockHash`
Kind: L -/
theorem getBlockHash_reread (hashers : HeaderHashers) (m : Int64) (d : CDiskBlockIndex) :
    (d.reread m).getBlockHash hashers =
      (({ CBlockHeader.null with
        nVersion := d.index.nVersion
        hashPrevBlock := d.hashPrev
        hashMerkleRoot := d.index.hashMerkleRoot
        nTime := d.index.nTime
        nBits := d.index.nBits
        nNonce := d.index.nNonce
        stake := d.index.stake
        powMsgHistoryId := d.index.powMsgHistoryId
        powMsgId := d.index.powMsgId } : CBlockHeader).reread m).getHash hashers := by
  simp only [getBlockHash, reread, CBlockHeader.reread_eq, MsgId.strncpy_chars,
    MsgId.strncpy_strncpy]

variable (hashers : HeaderHashers) (m : Int64) (fGetHash : Bool) (nClientVersion : Int32)
  {h : CBlockHeader} (nHeight nFile : Int32) (nDataPos nUndoPos nTx nStatus : UInt32)

/-- The record of an entry built from a header whose ids end inside their arrays reads back.
Source: `src/chain.h` `CDiskBlockIndex::SerializationOp`
Kind: L -/
theorem reads_unserialize_place (ht : h.Terminated) :
    ∃ bs, (ofIndex (CBlockIndex.place h nHeight nFile nDataPos nUndoPos nTx nStatus)).serialize
        fGetHash nClientVersion = .ok bs ∧
      Reads (unserialize m fGetHash) bs
        ((ofIndex (CBlockIndex.place h nHeight nFile nDataPos nUndoPos nTx nStatus)).reread m) := by
  have ht₁ := (MsgId.terminated_strncpy_iff h.powMsgHistoryId.data).2
    (h.powMsgHistoryId.length_data ▸ CString.length_chars_lt ht.1)
  have ht₂ := (MsgId.terminated_strncpy_iff h.powMsgId.data).2
    (h.powMsgId.length_data ▸ CString.length_chars_lt ht.2)
  exact reads_unserialize m fGetHash nClientVersion ht₁ ht₂

/-- The record read back has the hash of the header the entry was built from.
Source: `src/chain.h` `CDiskBlockIndex::GetBlockHash`
Kind: L -/
theorem getBlockHash_reread_place (ht : h.Terminated) :
    ((ofIndex (CBlockIndex.place h nHeight nFile nDataPos nUndoPos nTx nStatus)).reread m).getBlockHash
      hashers = h.getHash hashers := by
  -- the header of the record read back is `h` read back, up to copies of its id arrays
  rw [getBlockHash_reread, ← CBlockHeader.getHash_reread hashers ht (m := m)]
  simp only [CBlockHeader.reread_eq, ofIndex, CBlockIndex.place, CBlockIndex.ofHeader,
    Option.getD_some, MsgId.strncpy_strncpy]

/-- **The record of an entry built from a header, written and read back, has the header's hash;
its stake fields are the header's after the fork and the pre-fork defaults before.**
Source: `src/chain.h` `CBlockIndex::CBlockIndex(const CBlockHeader&)`,
`CBlockIndex::GetBlockHeader`, `CDiskBlockIndex::SerializationOp`,
`CDiskBlockIndex::GetBlockHash`; `src/chain.cpp` `CBlockIndex::LotteryIV`
Kind: P -/
theorem diskBlockIndex_reproduces_header (ht : h.Terminated) :
    let i := CBlockIndex.place h nHeight nFile nDataPos nUndoPos nTx nStatus
    i.getBlockHeader =
        { h with
          powMsgHistoryId := MsgId.strncpy h.powMsgHistoryId.data
          powMsgId := MsgId.strncpy h.powMsgId.data } ∧
      i.lotteryIV hashers = h.getHash hashers ∧
      ∃ bs e, (ofIndex i).serialize fGetHash nClientVersion = .ok bs ∧
        Reads (unserialize m fGetHash) bs e ∧
        e.getBlockHash hashers = h.getHash hashers ∧ e.index.stake = readStake m h.nVersion h.stake := by
  intro i
  obtain ⟨bs, hser, hreads⟩ :=
    reads_unserialize_place m fGetHash nClientVersion nHeight nFile nDataPos nUndoPos nTx nStatus ht
  exact ⟨CBlockIndex.getBlockHeader_place _ _ _ _ _ _ _,
    CBlockIndex.lotteryIV_place _ _ _ _ _ _ _ hashers ht, bs, _, hser, hreads,
    getBlockHash_reread_place hashers m nHeight nFile nDataPos nUndoPos nTx nStatus ht, rfl⟩

/-- **The record of an entry built from a header the node can hold reproduces the header**: a
header read from the wire or from disk, or built by the miner, carries the pre-fork defaults
before the fork (`stakeDefaultBeforeFork_of_unserialize`), and then every stake field of its
record read back is its own.
Source: `src/chain.h` `CBlockIndex::CBlockIndex(const CBlockHeader&)`,
`CBlockIndex::GetBlockHeader`, `CDiskBlockIndex::SerializationOp`,
`CDiskBlockIndex::GetBlockHash`; `src/chain.cpp` `CBlockIndex::LotteryIV`;
`src/primitives/block.cpp` `CBlockHeader::SetReadStakeDefaultBeforeFork`
Kind: P -/
theorem diskBlockIndex_reproduces_held_header (ht : h.Terminated)
    (hpre : h.StakeDefaultBeforeFork m) :
    let i := CBlockIndex.place h nHeight nFile nDataPos nUndoPos nTx nStatus
    i.getBlockHeader =
        { h with
          powMsgHistoryId := MsgId.strncpy h.powMsgHistoryId.data
          powMsgId := MsgId.strncpy h.powMsgId.data } ∧
      i.lotteryIV hashers = h.getHash hashers ∧
      ∃ bs e, (ofIndex i).serialize fGetHash nClientVersion = .ok bs ∧
        Reads (unserialize m fGetHash) bs e ∧
        e.getBlockHash hashers = h.getHash hashers ∧ e.index.stake = h.stake := by
  intro i
  obtain ⟨hhdr, hiv, bs, e, hser, hreads, hhash, hstake⟩ := diskBlockIndex_reproduces_header hashers
    m fGetHash nClientVersion nHeight nFile nDataPos nUndoPos nTx nStatus ht
  exact ⟨hhdr, hiv, bs, e, hser, hreads, hhash,
    hstake.trans (CBlockHeader.readStake_of_stakeDefaultBeforeFork hpre)⟩

/-- Hashers that read every byte: the bytes as digits in base 257.
Source: none: test data
Kind: D -/
def foldHashers : HeaderHashers :=
  ⟨fun bs => Uint256.ofNat (bs.foldl (fun a b => 257 * a + b.toNat) 0),
    fun bs => Uint256.ofNat (bs.foldl (fun a b => 257 * a + b.toNat) 1)⟩

/-- A header before the fork with the default stake fields and the ids `"ab"` and `"cd"`.
Source: none: test data
Kind: D -/
def preForkHeader : CBlockHeader :=
  { CBlockHeader.forkHeader with nVersion := 4, stake := StakeFields.readDefault 0 }

/-- A header after the fork with every stake field set, and one before it with the defaults, both
with the ids `"ab"` and `"cd"`, at height `7` with nonzero storage fields.
Source: `src/chain.h` `CDiskBlockIndex::SerializationOp`, `CDiskBlockIndex::GetBlockHash`
Kind: W -/
theorem diskBlockIndex_reproduces_fork_headers :
    (CBlockHeader.forkHeader.Terminated ∧ CBlockHeader.forkHeader.StakeDefaultBeforeFork 0 ∧
      let i := CBlockIndex.place CBlockHeader.forkHeader 7 1 80 40 2 3
      i.getBlockHeader =
          { CBlockHeader.forkHeader with
            powMsgHistoryId := MsgId.strncpy CBlockHeader.forkHeader.powMsgHistoryId.data
            powMsgId := MsgId.strncpy CBlockHeader.forkHeader.powMsgId.data } ∧
        i.lotteryIV foldHashers = CBlockHeader.forkHeader.getHash foldHashers ∧
        ∃ bs e, (ofIndex i).serialize false 0 = .ok bs ∧ Reads (unserialize 0 false) bs e ∧
          e.getBlockHash foldHashers = CBlockHeader.forkHeader.getHash foldHashers ∧
          e.index.stake = CBlockHeader.forkHeader.stake) ∧
    (preForkHeader.Terminated ∧ preForkHeader.StakeDefaultBeforeFork 0 ∧
      let i := CBlockIndex.place preForkHeader 7 1 80 40 2 3
      i.getBlockHeader =
          { preForkHeader with
            powMsgHistoryId := MsgId.strncpy preForkHeader.powMsgHistoryId.data
            powMsgId := MsgId.strncpy preForkHeader.powMsgId.data } ∧
        i.lotteryIV foldHashers = preForkHeader.getHash foldHashers ∧
        ∃ bs e, (ofIndex i).serialize true 0 = .ok bs ∧ Reads (unserialize 0 true) bs e ∧
          e.getBlockHash foldHashers = preForkHeader.getHash foldHashers ∧
          e.index.stake = preForkHeader.stake) :=
  ⟨⟨by decide, by decide, diskBlockIndex_reproduces_held_header foldHashers 0 false 0 7 1 80 40 2 3
      (by decide) (by decide)⟩,
    ⟨by decide, by decide, diskBlockIndex_reproduces_held_header foldHashers 0 true 0 7 1 80 40 2 3
      (by decide) (by decide)⟩⟩

/-! ## Entries reloaded -/

/-- **An entry reloaded from a record seeds the lottery with the record's hash**: the copy of
`LoadBlockIndexGuts` and `GetBlockHeader` make the header `GetBlockHash` makes.
Source: `src/txdb.cpp` `CBlockTreeDB::LoadBlockIndexGuts`; `src/chain.h`
`CBlockIndex::GetBlockHeader`, `CDiskBlockIndex::GetBlockHash`
Kind: L -/
theorem lotteryIV_loadBlockIndexGuts_eq (d : CDiskBlockIndex) :
    (loadBlockIndexGuts d).lotteryIV hashers = d.getBlockHash hashers := by
  -- the null hash becomes no predecessor, whose place in the header is the null hash again
  have hprev : (if d.hashPrev = Uint256.zero then none else some d.hashPrev).getD
      CBlockHeader.null.hashPrevBlock = d.hashPrev := by
    split
    · exact (‹d.hashPrev = Uint256.zero›).symm
    · rfl
  simp only [CBlockIndex.lotteryIV, CBlockIndex.getBlockHeader, loadBlockIndexGuts, getBlockHash,
    hprev, MsgId.strncpy_strncpy]

/-- **After a restart, the entry reloaded from the record of an entry built from a header seeds
the lottery with the header's hash.**
Source: `src/txdb.cpp` `CBlockTreeDB::LoadBlockIndexGuts`; `src/chain.cpp`
`CBlockIndex::LotteryIV`
Kind: P -/
theorem lotteryIV_loadBlockIndexGuts (ht : h.Terminated) :
    ∃ bs e, (ofIndex (CBlockIndex.place h nHeight nFile nDataPos nUndoPos nTx nStatus)).serialize
        fGetHash nClientVersion = .ok bs ∧
      Reads (unserialize m fGetHash) bs e ∧
      (loadBlockIndexGuts e).lotteryIV hashers = h.getHash hashers := by
  obtain ⟨bs, hser, hreads⟩ :=
    reads_unserialize_place m fGetHash nClientVersion nHeight nFile nDataPos nUndoPos nTx nStatus ht
  exact ⟨bs, _, hser, hreads, (lotteryIV_loadBlockIndexGuts_eq hashers _).trans
    (getBlockHash_reread_place hashers m nHeight nFile nDataPos nUndoPos nTx nStatus ht)⟩

/-- The header after the fork with every stake field set, reloaded.
Source: `src/txdb.cpp` `CBlockTreeDB::LoadBlockIndexGuts`
Kind: W -/
theorem lotteryIV_loadBlockIndexGuts_forkHeader :
    CBlockHeader.forkHeader.Terminated ∧
      ∃ bs e, (ofIndex (CBlockIndex.place CBlockHeader.forkHeader 7 1 80 40 2 3)).serialize false 0 = .ok bs ∧
        Reads (unserialize 0 false) bs e ∧
        (loadBlockIndexGuts e).lotteryIV foldHashers = CBlockHeader.forkHeader.getHash foldHashers :=
  ⟨by decide, lotteryIV_loadBlockIndexGuts foldHashers 0 false 0 7 1 80 40 2 3 (by decide)⟩

end CDiskBlockIndex

end BwsCoin.Chain
