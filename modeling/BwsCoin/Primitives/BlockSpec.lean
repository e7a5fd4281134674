import BwsCoin.Primitives.Block

/-!
# Block headers read back, and the bytes their hash covers

`CBlockHeader::SerializationOp` writes the message ids as the C strings of their arrays and
reads them back with `strncpy`; the stake fields travel only once `nVersion` has the fork bit.
What a read gives back, and what the bytes of a received header are, follow from the readers'
round-trip laws of `Serialize` and from `CString`:

* `unserialize_serialize` — a header whose ids end inside their arrays reads back from its
  serialization as `reread`: the same fields, the stake fields of the fork or the pre-fork
  defaults, and each id array cut at its first NUL; `serialize_reread` — with the same bytes,
  so the same hash;
* `reread_of_unserialize` — a header that was itself read reads back as itself: the encoding is
  a bijection between the headers read and the bytes they serialize to;
* `unserialize_eq_ok` — every byte string `Unserialize` accepts is the header's fields followed
  by two strings;
* `serialize_unserialize_iff` — and serializing the header read gives the bytes received
  exactly when both strings hold no NUL and fewer than `MSG_ID_SIZE` characters. A string with a
  NUL comes back cut at the NUL, so `GetHash` hashes other bytes than those received; one of
  `MSG_ID_SIZE` characters or more fills the array without a terminator, and
  `getHash_unserialize_long_msgId` — writing the header then reads past the array.
-/

namespace BwsCoin.Primitives

open Serialize ByteReader Stake

/-! ## Message ids -/

namespace MsgId

/-- The array holds a NUL, so its C string ends inside it.
Source: `src/primitives/block.h` `CBlockHeader::SerializationOp` (`strMsgId = powMsgId`)
Kind: D -/
def Terminated (m : MsgId) : Prop := (0 : UInt8) ∈ m.data

/-- Source: `src/primitives/block.h` `MSG_ID_SIZE`. Kind: D -/
instance (m : MsgId) : Decidable m.Terminated := inferInstanceAs (Decidable ((0 : UInt8) ∈ m.data))

/-- A string that `strncpy` copies whole into the array with room for a NUL after it.
Source: `src/primitives/block.h` `CBlockHeader::SerializationOp` (`strncpy`)
Kind: D -/
def Fits (str : List UInt8) : Prop := (0 : UInt8) ∉ str ∧ str.length < msgIdSize

/-- Source: `src/primitives/block.h` `MSG_ID_SIZE`. Kind: D -/
instance (str : List UInt8) : Decidable (Fits str) :=
  inferInstanceAs (Decidable ((0 : UInt8) ∉ str ∧ str.length < msgIdSize))

/-- The string written for a terminated array is its C string.
Source: `src/primitives/block.h` `CBlockHeader::SerializationOp` (`std::string(powMsgHistoryId)`)
Kind: L -/
theorem toString_of_terminated {m : MsgId} (h : m.Terminated) :
    m.toString = .ok (CString.chars m.data) :=
  if_pos h

/-- The string written for an array with no terminator reads past its end.
Source: `src/primitives/block.h` `CBlockHeader::SerializationOp` (`std::string(powMsgHistoryId)`)
Kind: L -/
theorem toString_of_not_terminated {m : MsgId} (h : ¬m.Terminated) :
    m.toString = .error (.undefined "strlen past the end of a char[MSG_ID_SIZE]") :=
  if_neg h

/-- Source: `src/primitives/block.h` `CBlockHeader::SerializationOp` (`strncpy`). Kind: L -/
@[simp] theorem strncpy_data (src : List UInt8) :
    (strncpy src).data = CString.strncpy msgIdSize src := rfl

/-- The array `strncpy` fills ends inside itself exactly when the C string of its source is
shorter than the array.
Source: `src/primitives/block.h` `CBlockHeader::SerializationOp` (`strncpy`)
Kind: L -/
theorem terminated_strncpy_iff (src : List UInt8) :
    (strncpy src).Terminated ↔ (CString.chars src).length < msgIdSize := by
  constructor
  · intro h
    have hlt := CString.length_chars_lt h
    rwa [strncpy_data, CString.chars_strncpy, CString.length_strncpy, List.length_take,
      min_lt_iff, or_iff_right (Nat.lt_irrefl _)] at hlt
  · exact CString.nul_mem_strncpy

/-- The string written for an array `strncpy` filled: its source's C string, when that fits.
Source: `src/primitives/block.h` `CBlockHeader::SerializationOp`
Kind: L -/
theorem toString_strncpy {src : List UInt8} (h : (CString.chars src).length < msgIdSize) :
    (strncpy src).toString = .ok (CString.chars src) := by
  rw [toString_of_terminated ((terminated_strncpy_iff src).2 h), strncpy_data,
    CString.chars_strncpy, List.take_of_length_le (Nat.le_of_lt h)]

/-- The string written for an array filled from a string that fits is that string.
Source: `src/primitives/block.h` `CBlockHeader::SerializationOp`
Kind: L -/
theorem toString_strncpy_of_fits {str : List UInt8} (h : Fits str) :
    (strncpy str).toString = .ok str := by
  have hchars := CString.chars_of_nul_not_mem h.1
  have hlt : (CString.chars str).length < msgIdSize := by rw [hchars]; exact h.2
  rw [toString_strncpy hlt, hchars]

/-- **An array filled from a string of `MSG_ID_SIZE` characters or more before its first NUL
has no terminator**, and writing it is undefined.
Source: `src/primitives/block.h` `CBlockHeader::SerializationOp`
Kind: L -/
theorem toString_strncpy_of_long {src : List UInt8} (h : msgIdSize ≤ (CString.chars src).length) :
    (strncpy src).toString = .error (.undefined "strlen past the end of a char[MSG_ID_SIZE]") :=
  toString_of_not_terminated fun ht => Nat.not_lt.2 h ((terminated_strncpy_iff src).1 ht)

/-- The string written for an array that was written and read back is the one written first.
Source: `src/primitives/block.h` `CBlockHeader::SerializationOp`
Kind: L -/
theorem toString_strncpy_chars {m : MsgId} (h : m.Terminated) :
    (strncpy (CString.chars m.data)).toString = m.toString := by
  have hlt : (CString.chars m.data).length < msgIdSize :=
    m.length_data ▸ CString.length_chars_lt h
  have hlt' : (CString.chars (CString.chars m.data)).length < msgIdSize := by
    rw [CString.chars_chars]; exact hlt
  rw [toString_strncpy hlt', CString.chars_chars,
    toString_of_terminated h]

/-- The C string of an array is short enough for a `std::string` to read back.
Source: `src/primitives/block.h` `CBlockHeader::SerializationOp`; `src/serialize.h` `MAX_SIZE`
Kind: L -/
theorem length_chars_le_maxSize (m : MsgId) : (CString.chars m.data).length ≤ maxSize :=
  calc (CString.chars m.data).length ≤ m.data.length := (List.takeWhile_prefix _).length_le
    _ = msgIdSize := m.length_data
    _ ≤ maxSize := by decide

/-- `strncpy` reads only the C string of its source.
Source: `src/primitives/block.h` `CBlockHeader::SerializationOp` (`strncpy`)
Kind: L -/
theorem strncpy_chars (src : List UInt8) : strncpy (CString.chars src) = strncpy src :=
  MsgId.ext (CString.strncpy_chars msgIdSize src)

/-- An array `strncpy` filled is filled again the same by a copy of itself.
Source: `src/chain.h` `CBlockIndex::GetBlockHeader` (`strncpy`)
Kind: L -/
theorem strncpy_strncpy (src : List UInt8) : strncpy (strncpy src).data = strncpy src :=
  MsgId.ext (CString.strncpy_strncpy msgIdSize src)

/-- An array that `strncpy` filled is filled again the same by a copy of its C string.
Source: `src/primitives/block.h` `CBlockHeader::SerializationOp` (`strncpy`)
Kind: L -/
theorem strncpy_chars_strncpy (src : List UInt8) :
    strncpy (CString.chars (strncpy src).data) = strncpy src := by
  rw [strncpy_chars, strncpy_strncpy]

/-- A copy of an array holds the C string of the array.
Source: `src/chain.h` `CBlockIndex::GetBlockHeader` (`strncpy`)
Kind: L -/
theorem toString_strncpy_data {m : MsgId} (h : m.Terminated) :
    (strncpy m.data).toString = m.toString := by
  rw [← strncpy_chars]
  exact toString_strncpy_chars h

end MsgId

/-! ## Stake fields -/

namespace StakeFields

/-- Source: `src/primitives/block.h` `CBlockHeader::SerializationOp`. Kind: L -/
theorem reads_unserialize (s : StakeFields) : Reads unserialize s.serialize s := by
  unfold unserialize serialize
  simp only [List.append_assoc]
  refine (reads_unserializeInt64 _).bind ?_
  refine (reads_serReaddata16 _).bind ?_
  refine (reads_serReaddata32 _).bind ?_
  refine (reads_unserializeUint48 _).bind ?_
  refine (reads_serReaddata16 _).bind ?_
  refine (reads_serReaddata8 _).bind ?_
  refine (reads_serReaddata8 _).bind ?_
  refine (reads_unserializeUint256 _).bind ?_
  exact Reads.of_eq ((reads_serReaddata32 _).bind (Reads.pure _)) (List.append_nil _) rfl

/-- Source: `src/primitives/block.h` `CBlockHeader::SerializationOp`. Kind: L -/
theorem canonical_unserialize : Canonical unserialize serialize := by
  intro s st s' h
  unfold unserialize at h
  obtain ⟨a₁, s₁, rfl, h₁⟩ := canonical_unserializeInt64.bind_run h
  obtain ⟨a₂, s₂, rfl, h₂⟩ := canonical_serReaddata16.bind_run h₁
  obtain ⟨a₃, s₃, rfl, h₃⟩ := canonical_serReaddata32.bind_run h₂
  obtain ⟨a₄, s₄, rfl, h₄⟩ := canonical_unserializeUint48.bind_run h₃
  obtain ⟨a₅, s₅, rfl, h₅⟩ := canonical_serReaddata16.bind_run h₄
  obtain ⟨a₆, s₆, rfl, h₆⟩ := canonical_serReaddata8.bind_run h₅
  obtain ⟨a₇, s₇, rfl, h₇⟩ := canonical_serReaddata8.bind_run h₆
  obtain ⟨a₈, s₈, rfl, h₈⟩ := canonical_unserializeUint256.bind_run h₇
  obtain ⟨a₉, s₉, rfl, h₉⟩ := canonical_serReaddata32.bind_run h₈
  obtain ⟨rfl, rfl⟩ := run_pure_eq_ok h₉
  simp only [serialize, List.append_assoc]

end StakeFields

/-- The stake fields a header holds after a read of the fields `stake` written with the version
`nVersion`: those fields after the fork, the defaults of `SetReadStakeDefaultBeforeFork` before.
Source: `src/primitives/block.h` `CBlockHeader::SerializationOp`
Kind: D -/
def readStake (nMinimumStakeDiff : Int64) (nVersion : Int32) (stake : StakeFields) : StakeFields :=
  if hasHardforkBit nVersion then stake else StakeFields.readDefault nMinimumStakeDiff

/-- The stake block of a read: what it reads, from the bytes written for the fields.
Source: `src/primitives/block.h` `CBlockHeader::SerializationOp` (the stake block)
Kind: L -/
theorem reads_readFor (m : Int64) (nVersion : Int32) (stake : StakeFields) :
    Reads (StakeFields.readFor m nVersion)
      (if hasHardforkBit nVersion then stake.serialize else []) (readStake m nVersion stake) := by
  unfold StakeFields.readFor readStake
  split
  · exact StakeFields.reads_unserialize stake
  · exact Reads.pure _

/-- The stake block of a read that succeeded: the bytes of the fields it read, which are those
of `readStake`.
Source: `src/primitives/block.h` `CBlockHeader::SerializationOp` (the stake block)
Kind: L -/
theorem readFor_eq_ok {m : Int64} {nVersion : Int32} {s s' : List UInt8} {st : StakeFields}
    (h : (StakeFields.readFor m nVersion).run s = .ok (st, s')) :
    s = (if hasHardforkBit nVersion then st.serialize else []) ++ s' ∧
      st = readStake m nVersion st := by
  unfold StakeFields.readFor at h
  unfold readStake
  split at h
  · rw [if_pos ‹_›, if_pos ‹_›]
    exact ⟨StakeFields.canonical_unserialize s st s' h, rfl⟩
  · obtain ⟨rfl, rfl⟩ := run_pure_eq_ok h
    rw [if_neg ‹_›, if_neg ‹_›]
    exact ⟨rfl, rfl⟩

/-- Two header encodings with the same fields are equal only with the same strings.
Source: `src/primitives/block.h` `CBlockHeader::SerializationOp`
Kind: L -/
theorem writeHeader_inj {nVersion : Int32} {hashPrevBlock hashMerkleRoot : Uint256}
    {nTime nBits nNonce : UInt32} {stake : StakeFields} {a₁ a₂ b₁ b₂ : List UInt8}
    (ha₁ : a₁.length ≤ maxSize) (ha₂ : a₂.length ≤ maxSize) (hb₁ : b₁.length ≤ maxSize)
    (hb₂ : b₂.length ≤ maxSize)
    (h : writeHeader nVersion hashPrevBlock hashMerkleRoot nTime nBits nNonce stake a₁ a₂ =
      writeHeader nVersion hashPrevBlock hashMerkleRoot nTime nBits nNonce stake b₁ b₂) :
    a₁ = b₁ ∧ a₂ = b₂ := by
  simp only [writeHeader, List.append_assoc, List.append_cancel_left_eq] at h
  obtain ⟨rfl, h₂⟩ := (reads_unserializeBytes ha₁).append_inj (reads_unserializeBytes hb₁) h
  have h₂' : serializeBytes a₂ ++ [] = serializeBytes b₂ ++ [] := by rw [h₂]
  exact ⟨rfl, ((reads_unserializeBytes ha₂).append_inj (reads_unserializeBytes hb₂) h₂').1⟩

/-! ## Headers -/

namespace CBlockHeader

variable {m : Int64} {h hdr : CBlockHeader}

/-- Both message ids of the header end inside their arrays.
Source: `src/primitives/block.h` `CBlockHeader::SerializationOp`
Kind: D -/
def Terminated (h : CBlockHeader) : Prop := h.powMsgHistoryId.Terminated ∧ h.powMsgId.Terminated

/-- Source: `src/primitives/block.h` `CBlockHeader::SerializationOp`. Kind: D -/
instance (h : CBlockHeader) : Decidable h.Terminated :=
  inferInstanceAs (Decidable (h.powMsgHistoryId.Terminated ∧ h.powMsgId.Terminated))

/-- The header a read of `h`'s serialization builds: the stake fields of `readStake`, and each id
array `strncpy`d from its own C string, so cut at its first NUL.
Source: `src/primitives/block.h` `CBlockHeader::SerializationOp`
Kind: D -/
def reread (nMinimumStakeDiff : Int64) (h : CBlockHeader) : CBlockHeader :=
  { h with
    stake := readStake nMinimumStakeDiff h.nVersion h.stake
    powMsgHistoryId := MsgId.strncpy (CString.chars h.powMsgHistoryId.data)
    powMsgId := MsgId.strncpy (CString.chars h.powMsgId.data) }

/-- A header whose ids end inside their arrays writes their C strings.
Source: `src/primitives/block.h` `CBlockHeader::SerializationOp`
Kind: L -/
theorem serialize_of_terminated (ht : h.Terminated) :
    h.serialize = .ok (writeHeader h.nVersion h.hashPrevBlock h.hashMerkleRoot h.nTime h.nBits
      h.nNonce h.stake (CString.chars h.powMsgHistoryId.data) (CString.chars h.powMsgId.data)) := by
  rw [serialize, MsgId.toString_of_terminated ht.1, MsgId.toString_of_terminated ht.2]
  rfl

/-- The stake fields are written only after the fork, so those of `readStake` write the same.
Source: `src/primitives/block.h` `CBlockHeader::SerializationOp`
Kind: L -/
theorem writeHeader_readStake (nVersion : Int32) (hashPrevBlock hashMerkleRoot : Uint256)
    (nTime nBits nNonce : UInt32) (stake : StakeFields) (a₁ a₂ : List UInt8) :
    writeHeader nVersion hashPrevBlock hashMerkleRoot nTime nBits nNonce
        (readStake m nVersion stake) a₁ a₂ =
      writeHeader nVersion hashPrevBlock hashMerkleRoot nTime nBits nNonce stake a₁ a₂ := by
  unfold writeHeader readStake
  split <;> rfl

/-- The header read back serializes to the same bytes as the header written.
Source: `src/primitives/block.h` `CBlockHeader::SerializationOp`
Kind: L -/
theorem serialize_reread (ht : h.Terminated) : (h.reread m).serialize = h.serialize := by
  rw [serialize, reread, MsgId.toString_strncpy_chars ht.1, MsgId.toString_strncpy_chars ht.2,
    MsgId.toString_of_terminated ht.1, MsgId.toString_of_terminated ht.2, serialize_of_terminated ht]
  exact congrArg Except.ok (writeHeader_readStake _ _ _ _ _ _ _ _ _)

/-- A copy of a header with its id arrays copied by `strncpy`, as each copy of the source makes
it, serializes to the same bytes.
Source: `src/chain.h` `CBlockIndex::GetBlockHeader`
Kind: L -/
theorem serialize_strncpy_ids (ht : h.Terminated) :
    ({ h with
        powMsgHistoryId := MsgId.strncpy h.powMsgHistoryId.data
        powMsgId := MsgId.strncpy h.powMsgId.data } : CBlockHeader).serialize = h.serialize := by
  simp only [serialize, MsgId.toString_strncpy_data ht.1, MsgId.toString_strncpy_data ht.2]

/-- The header a read builds is the header with the stake fields of `readStake` and its ids copied.
Source: `src/primitives/block.h` `CBlockHeader::SerializationOp`
Kind: L -/
theorem reread_eq (m : Int64) (h : CBlockHeader) :
    h.reread m = { h with
      stake := readStake m h.nVersion h.stake
      powMsgHistoryId := MsgId.strncpy h.powMsgHistoryId.data
      powMsgId := MsgId.strncpy h.powMsgId.data } := by
  rw [reread, MsgId.strncpy_chars, MsgId.strncpy_chars]

/-- So the header read back has the hash of the header written.
Source: `src/primitives/block.cpp` `CBlockHeader::GetHash`
Kind: L -/
theorem getHash_reread (hashers : HeaderHashers) (ht : h.Terminated) :
    (h.reread m).getHash hashers = h.getHash hashers := by
  rw [getHash, getHash, serialize_reread ht]
  rfl

/-- **What a read of the header fields and two strings builds.**
Source: `src/primitives/block.h` `CBlockHeader::SerializationOp`
Kind: L -/
theorem reads_unserialize_writeHeader (m : Int64) (nVersion : Int32)
    (hashPrevBlock hashMerkleRoot : Uint256) (nTime nBits nNonce : UInt32) (stake : StakeFields)
    (strMsgHistoryId strMsgId : List UInt8) (h₁ : strMsgHistoryId.length ≤ maxSize)
    (h₂ : strMsgId.length ≤ maxSize) :
    Reads (unserialize m)
      (writeHeader nVersion hashPrevBlock hashMerkleRoot nTime nBits nNonce stake strMsgHistoryId
        strMsgId)
      ⟨nVersion, hashPrevBlock, hashMerkleRoot, nTime, nBits, nNonce, readStake m nVersion stake,
        MsgId.strncpy strMsgHistoryId, MsgId.strncpy strMsgId⟩ := by
  unfold unserialize writeHeader
  simp only [List.append_assoc]
  refine (reads_unserializeInt32 _).bind ?_
  refine (reads_unserializeUint256 _).bind ?_
  refine (reads_unserializeUint256 _).bind ?_
  refine (reads_serReaddata32 _).bind ?_
  refine (reads_serReaddata32 _).bind ?_
  refine (reads_serReaddata32 _).bind ?_
  refine (reads_readFor m nVersion stake).bind ?_
  refine (reads_unserializeBytes h₁).bind ?_
  exact Reads.of_eq ((reads_unserializeBytes h₂).bind (Reads.pure _)) (List.append_nil _) rfl

/-- **A header whose ids end inside their arrays reads back from its serialization**, as
`reread`: the stake fields included exactly when `nVersion` has the fork bit, the defaults
otherwise.
Source: `src/primitives/block.h` `CBlockHeader::SerializationOp`
Kind: P -/
theorem unserialize_serialize (m : Int64) (ht : h.Terminated) :
    ∃ bs, h.serialize = .ok bs ∧ Reads (unserialize m) bs (h.reread m) := by
  exact ⟨_, serialize_of_terminated ht, reads_unserialize_writeHeader m _ _ _ _ _ _ _ _ _
    h.powMsgHistoryId.length_chars_le_maxSize h.powMsgId.length_chars_le_maxSize⟩

/-- **Every byte string a header read accepts** is the header's fields followed by two strings
of at most `MAX_SIZE` bytes, which the id arrays were `strncpy`d from; its stake fields are those
of `readStake`.
Source: `src/primitives/block.h` `CBlockHeader::SerializationOp`
Kind: L -/
theorem unserialize_eq_ok {s s' : List UInt8} (h : (unserialize m).run s = .ok (hdr, s')) :
    ∃ strMsgHistoryId strMsgId,
      s = writeHeader hdr.nVersion hdr.hashPrevBlock hdr.hashMerkleRoot hdr.nTime hdr.nBits
        hdr.nNonce hdr.stake strMsgHistoryId strMsgId ++ s' ∧
      strMsgHistoryId.length ≤ maxSize ∧ strMsgId.length ≤ maxSize ∧
      hdr.powMsgHistoryId = MsgId.strncpy strMsgHistoryId ∧ hdr.powMsgId = MsgId.strncpy strMsgId ∧
      hdr.stake = readStake m hdr.nVersion hdr.stake := by
  unfold unserialize at h
  obtain ⟨nVersion, s₁, rfl, h₁⟩ := canonical_unserializeInt32.bind_run h
  obtain ⟨hashPrevBlock, s₂, rfl, h₂⟩ := canonical_unserializeUint256.bind_run h₁
  obtain ⟨hashMerkleRoot, s₃, rfl, h₃⟩ := canonical_unserializeUint256.bind_run h₂
  obtain ⟨nTime, s₄, rfl, h₄⟩ := canonical_serReaddata32.bind_run h₃
  obtain ⟨nBits, s₅, rfl, h₅⟩ := canonical_serReaddata32.bind_run h₄
  obtain ⟨nNonce, s₆, rfl, h₆⟩ := canonical_serReaddata32.bind_run h₅
  obtain ⟨stake, s₇, hs₇, h₇⟩ := run_bind_eq_ok h₆
  obtain ⟨rfl, hstake⟩ := readFor_eq_ok hs₇
  obtain ⟨str₁, s₈, hs₈, h₈⟩ := run_bind_eq_ok h₇
  obtain ⟨hlen₁, rfl⟩ := unserializeBytes_eq_ok hs₈
  obtain ⟨str₂, s₉, hs₉, h₉⟩ := run_bind_eq_ok h₈
  obtain ⟨hlen₂, rfl⟩ := unserializeBytes_eq_ok hs₉
  obtain ⟨rfl, rfl⟩ := run_pure_eq_ok h₉
  exact ⟨str₁, str₂, by simp only [writeHeader, List.append_assoc], hlen₁, hlen₂, rfl, rfl, hstake⟩

/-- **A header that was itself read, with ids that end inside their arrays, reads back as
itself**: on the headers a node can hold, the encoding is a bijection.
Source: `src/primitives/block.h` `CBlockHeader::SerializationOp`
Kind: P -/
theorem reread_of_unserialize {s s' : List UInt8} (h : (unserialize m).run s = .ok (hdr, s')) :
    hdr.reread m = hdr := by
  obtain ⟨str₁, str₂, -, -, -, h₁, h₂, hstake⟩ := unserialize_eq_ok h
  obtain ⟨nVersion, hashPrevBlock, hashMerkleRoot, nTime, nBits, nNonce, stake, id₁, id₂⟩ := hdr
  simp only at h₁ h₂ hstake
  subst h₁ h₂
  rw [reread, MsgId.strncpy_chars_strncpy, MsgId.strncpy_chars_strncpy, ← hstake]

/-- **On the headers a node holds, `Unserialize(Serialize(h)) == h`**: a header that a read built,
with ids that end inside their arrays, serializes, and its bytes read back as itself.
Source: `src/primitives/block.h` `CBlockHeader::SerializationOp`
Kind: P -/
theorem unserialize_serialize_of_unserialize {s s' : List UInt8}
    (h : (unserialize m).run s = .ok (hdr, s')) (ht : hdr.Terminated) :
    ∃ bs, hdr.serialize = .ok bs ∧ Reads (unserialize m) bs hdr := by
  obtain ⟨bs, hser, hreads⟩ := unserialize_serialize m ht
  exact ⟨bs, hser, hreads.of_eq rfl (reread_of_unserialize h)⟩

/-- A header after the fork, with every stake field set and the ids `"ab"` and `"cd"`.
Source: none: test data
Kind: D -/
def forkHeader : CBlockHeader :=
  ⟨Int32.ofBitVec 0x80000007#32, Uint256.ofNat 1, Uint256.ofNat 2, 1600000000, 0x1d00ffff, 42,
    ⟨300000000, ⟨1⟩, 40960, Uint48.ofNat 5, 5, 3, 1, Uint256.ofNat 9, 4⟩, MsgId.strncpy [97, 98],
    MsgId.strncpy [99, 100]⟩

/-- The header after the fork with every stake field set, read from its bytes, writes them back.
Source: `src/primitives/block.h` `CBlockHeader::SerializationOp`
Kind: W -/
theorem unserialize_serialize_forkHeader :
    ∃ hdr, (unserialize 0).run (writeHeader forkHeader.nVersion forkHeader.hashPrevBlock
        forkHeader.hashMerkleRoot forkHeader.nTime forkHeader.nBits forkHeader.nNonce
        forkHeader.stake [97, 98] [99, 100]) = .ok (hdr, []) ∧
      hdr.Terminated ∧ ∃ bs, hdr.serialize = .ok bs ∧ Reads (unserialize 0) bs hdr := by
  have hread := (reads_unserialize_writeHeader 0 forkHeader.nVersion forkHeader.hashPrevBlock
    forkHeader.hashMerkleRoot forkHeader.nTime forkHeader.nBits forkHeader.nNonce forkHeader.stake
    [97, 98] [99, 100] (by decide) (by decide)).run_eq
  have ht : Terminated ⟨forkHeader.nVersion, forkHeader.hashPrevBlock, forkHeader.hashMerkleRoot,
      forkHeader.nTime, forkHeader.nBits, forkHeader.nNonce,
      readStake 0 forkHeader.nVersion forkHeader.stake, MsgId.strncpy [97, 98],
      MsgId.strncpy [99, 100]⟩ := by decide
  exact ⟨_, hread, ht, unserialize_serialize_of_unserialize hread ht⟩

/-- The header carries the stake fields `SetReadStakeDefaultBeforeFork` sets when its version
has no fork bit: so does every header a read builds (`stakeDefaultBeforeFork_of_unserialize`), the
genesis block's and those the miner builds before the fork.
Source: `src/primitives/block.cpp` `CBlockHeader::SetReadStakeDefaultBeforeFork`
Kind: D -/
def StakeDefaultBeforeFork (m : Int64) (h : CBlockHeader) : Prop :=
  hasHardforkBit h.nVersion = false → h.stake = StakeFields.readDefault m

/-- Source: `src/primitives/block.cpp` `CBlockHeader::SetReadStakeDefaultBeforeFork`. Kind: D -/
instance (m : Int64) (h : CBlockHeader) : Decidable (h.StakeDefaultBeforeFork m) :=
  inferInstanceAs (Decidable (hasHardforkBit h.nVersion = false → h.stake = StakeFields.readDefault m))

/-- A header that a read built carries the pre-fork defaults before the fork.
Source: `src/primitives/block.h` `CBlockHeader::SerializationOp`
Kind: L -/
theorem stakeDefaultBeforeFork_of_unserialize {s s' : List UInt8}
    (h : (unserialize m).run s = .ok (hdr, s')) : hdr.StakeDefaultBeforeFork m := by
  obtain ⟨-, -, -, -, -, -, -, hstake⟩ := unserialize_eq_ok h
  intro hb
  rw [hstake, readStake, if_neg (by simp [hb])]

/-- The stake fields a read of such a header gives back are its own.
Source: `src/primitives/block.h` `CBlockHeader::SerializationOp`
Kind: L -/
theorem readStake_of_stakeDefaultBeforeFork (hpre : hdr.StakeDefaultBeforeFork m) :
    readStake m hdr.nVersion hdr.stake = hdr.stake := by
  unfold readStake
  split
  · rfl
  · next hb => exact (hpre (Bool.of_not_eq_true hb)).symm

/-- **The bytes of a received header are those its serialization gives back exactly when both
strings fit their arrays**: a string with a NUL re-serializes cut at the NUL, and one of
`MSG_ID_SIZE` characters or more not at all.
Source: `src/primitives/block.h` `CBlockHeader::SerializationOp`; `src/primitives/block.cpp`
`CBlockHeader::GetHash`
Kind: P -/
theorem serialize_unserialize_iff {s : List UInt8} (h : (unserialize m).run s = .ok (hdr, [])) :
    ∃ strMsgHistoryId strMsgId,
      s = writeHeader hdr.nVersion hdr.hashPrevBlock hdr.hashMerkleRoot hdr.nTime hdr.nBits
        hdr.nNonce hdr.stake strMsgHistoryId strMsgId ∧
      (hdr.serialize = .ok s ↔ MsgId.Fits strMsgHistoryId ∧ MsgId.Fits strMsgId) := by
  obtain ⟨str₁, str₂, hs, hlen₁, hlen₂, h₁, h₂, -⟩ := unserialize_eq_ok h
  rw [List.append_nil] at hs
  refine ⟨str₁, str₂, hs, ?_, ?_⟩
  · -- the strings written for the arrays are the C strings of `str₁` and `str₂`, and equal them
    intro hser
    rw [serialize, h₁, h₂] at hser
    by_cases hc₁ : (CString.chars str₁).length < msgIdSize
    · by_cases hc₂ : (CString.chars str₂).length < msgIdSize
      · rw [MsgId.toString_strncpy hc₁, MsgId.toString_strncpy hc₂, hs] at hser
        have hle : ∀ str : List UInt8, (CString.chars str).length < msgIdSize →
            (CString.chars str).length ≤ maxSize := fun _ hc => le_trans (Nat.le_of_lt hc) (by decide)
        obtain ⟨he₁, he₂⟩ := writeHeader_inj (hle _ hc₁) (hle _ hc₂) hlen₁ hlen₂ (Except.ok.inj hser)
        exact ⟨⟨he₁ ▸ CString.nul_not_mem_chars str₁, he₁ ▸ hc₁⟩,
          ⟨he₂ ▸ CString.nul_not_mem_chars str₂, he₂ ▸ hc₂⟩⟩
      · rw [MsgId.toString_strncpy hc₁, MsgId.toString_strncpy_of_long (Nat.not_lt.1 hc₂)] at hser
        cases hser
    · rw [MsgId.toString_strncpy_of_long (Nat.not_lt.1 hc₁)] at hser
      cases hser
  · rintro ⟨hf₁, hf₂⟩
    rw [serialize, h₁, h₂, MsgId.toString_strncpy_of_fits hf₁, MsgId.toString_strncpy_of_fits hf₂,
      hs]
    rfl

/-- Bytes of a pre-fork header with the history id string `a\0b`, which a read accepts whole.
Source: none: test data
Kind: D -/
def nulMsgIdHeaderBytes : List UInt8 :=
  writeHeader 0 Uint256.zero Uint256.zero 0 0 0 StakeFields.null [0x61, 0, 0x62] []

/-- A read accepts an id string with a NUL inside, and the header it builds does not write the same
bytes.
Source: `src/primitives/block.h` `CBlockHeader::SerializationOp`
Kind: W -/
theorem serialize_unserialize_nul_msgId :
    ∃ hdr, (unserialize 0).run nulMsgIdHeaderBytes = .ok (hdr, []) ∧
      hdr.serialize ≠ .ok nulMsgIdHeaderBytes := by
  have hread := (reads_unserialize_writeHeader 0 0 Uint256.zero Uint256.zero 0 0 0 StakeFields.null
    [0x61, 0, 0x62] [] (by decide) (by decide)).run_eq
  refine ⟨_, hread, fun hser => ?_⟩
  obtain ⟨str₁, str₂, hs, hiff⟩ := serialize_unserialize_iff hread
  obtain ⟨⟨hnul, hlt⟩, hfit₂⟩ := hiff.1 hser
  dsimp only at hs
  rw [writeHeader_readStake] at hs
  obtain ⟨rfl, rfl⟩ := writeHeader_inj (by decide) (by decide) (le_trans (Nat.le_of_lt hlt)
    (by decide)) (le_trans (Nat.le_of_lt hfit₂.2) (by decide)) hs
  exact hnul (List.mem_cons_of_mem _ List.mem_cons_self)

/-- **A header received with an id string of `MSG_ID_SIZE` characters or more before its first
NUL has no hash**: the read accepts it, and `GetHash` then runs `strlen` past the array.
Source: `src/primitives/block.h` `CBlockHeader::SerializationOp`; `src/primitives/block.cpp`
`CBlockHeader::GetHash`
Kind: P -/
theorem getHash_unserialize_long_msgId (hashers : HeaderHashers) (nVersion : Int32)
    (hashPrevBlock hashMerkleRoot : Uint256) (nTime nBits nNonce : UInt32) (stake : StakeFields)
    {strMsgHistoryId strMsgId : List UInt8} (h₁ : strMsgHistoryId.length ≤ maxSize)
    (h₂ : strMsgId.length ≤ maxSize) (hlong : msgIdSize ≤ (CString.chars strMsgHistoryId).length) :
    ∃ hdr, (unserialize m).run (writeHeader nVersion hashPrevBlock hashMerkleRoot nTime nBits
        nNonce stake strMsgHistoryId strMsgId) = .ok (hdr, []) ∧
      hdr.getHash hashers = .error (.undefined "strlen past the end of a char[MSG_ID_SIZE]") := by
  refine ⟨_, (reads_unserialize_writeHeader m nVersion hashPrevBlock hashMerkleRoot nTime nBits
    nNonce stake _ _ h₁ h₂).run_eq, ?_⟩
  rw [getHash, serialize]
  simp only
  rw [MsgId.toString_strncpy_of_long hlong]
  rfl

end CBlockHeader

end BwsCoin.Primitives
