import Mathlib
import BwsCoin.Lib.ByteReader
import BwsCoin.Basic

/-!
# The stream serialization of `serialize.h`

What `s << x` writes and what `s >> x` reads, for the types the transaction, the block header
and the block index serialize: fixed-width little-endian integers, `CompactSize` counts,
`VARINT`s, byte strings, vectors of objects and blobs. A read is a `Reader` of the stream's
bytes; a read past the end throws `CDataStream::read(): end of data`, and `ReadCompactSize`
throws on a non-canonical count and on one above `MAX_SIZE`.

* `reads_serReaddata`, `reads_readCompactSize`, `reads_readVarInt`, `reads_unserializeBytes`,
  `reads_unserializeVector` — each reader reads back what its writer writes, leaving what
  follows: for every count up to `MAX_SIZE`, and for every `VARINT` of the reader's type;
* `readCompactSize_of_gt` — and a count above `MAX_SIZE` is refused, so a byte string or a
  vector longer than that does not read back.
-/

namespace BwsCoin.Serialize

open ByteReader ByteCodec

/-- A reader of a `CDataStream`: the reads that fail throw `std::ios_base::failure`.
Source: `src/streams.h` `CDataStream`
Kind: D -/
abbrev Reader (α : Type) := ByteReader.Reader Fault α

/-- The exception of a read past the end of the stream.
Source: `src/streams.h` `CDataStream::read`
Kind: D -/
def endOfData : Fault := .raise "CDataStream::read(): end of data"

/-- `MAX_SIZE`: the largest count `ReadCompactSize` accepts.
Source: `src/serialize.h` `MAX_SIZE`
Kind: D -/
def maxSize : Nat := 0x02000000

/-! ## Fixed-width integers -/

/-- `ser_writedata8/16/32/64`: the `n` bytes of `obj`, least significant first (`htole`).
Source: `src/serialize.h` `ser_writedata8`, `ser_writedata16`, `ser_writedata32`,
`ser_writedata64`
Kind: D -/
def serWritedata (n obj : Nat) : List UInt8 := leBytes n obj

/-- Source: `src/serialize.h` `ser_writedata8`. Kind: D -/
def serWritedata8 (obj : UInt8) : List UInt8 := serWritedata 1 obj.toNat

/-- Source: `src/serialize.h` `ser_writedata16`. Kind: D -/
def serWritedata16 (obj : UInt16) : List UInt8 := serWritedata 2 obj.toNat

/-- Source: `src/serialize.h` `ser_writedata32`. Kind: D -/
def serWritedata32 (obj : UInt32) : List UInt8 := serWritedata 4 obj.toNat

/-- Source: `src/serialize.h` `ser_writedata64`. Kind: D -/
def serWritedata64 (obj : UInt64) : List UInt8 := serWritedata 8 obj.toNat

/-- `ser_readdata8/16/32/64`: `n` bytes, least significant first (`letoh`).
Source: `src/serialize.h` `ser_readdata8`, `ser_readdata16`, `ser_readdata32`,
`ser_readdata64`
Kind: D -/
def serReaddata (n : Nat) : Reader Nat := readLE endOfData n

/-- Source: `src/serialize.h` `ser_readdata8`. Kind: D -/
def serReaddata8 : Reader UInt8 := UInt8.ofNat <$> serReaddata 1

/-- Source: `src/serialize.h` `ser_readdata16`. Kind: D -/
def serReaddata16 : Reader UInt16 := UInt16.ofNat <$> serReaddata 2

/-- Source: `src/serialize.h` `ser_readdata32`. Kind: D -/
def serReaddata32 : Reader UInt32 := UInt32.ofNat <$> serReaddata 4

/-- Source: `src/serialize.h` `ser_readdata64`. Kind: D -/
def serReaddata64 : Reader UInt64 := UInt64.ofNat <$> serReaddata 8

/-- `Serialize(s, int32_t)`: the bits of the two's complement, as a `uint32_t`.
Source: `src/serialize.h` `Serialize(Stream&, int32_t)`
Kind: D -/
def serializeInt32 (a : Int32) : List UInt8 := serWritedata32 a.toUInt32

/-- `Unserialize(s, int32_t&)`. Source: `src/serialize.h`. Kind: D -/
def unserializeInt32 : Reader Int32 := UInt32.toInt32 <$> serReaddata32

/-- `Serialize(s, int64_t)`. Source: `src/serialize.h`. Kind: D -/
def serializeInt64 (a : Int64) : List UInt8 := serWritedata64 a.toUInt64

/-- `Unserialize(s, int64_t&)`. Source: `src/serialize.h`. Kind: D -/
def unserializeInt64 : Reader Int64 := UInt64.toInt64 <$> serReaddata64

/-! ## `CompactSize` -/

/-- `WriteCompactSize`: one byte below 253, else a marker and two, four or eight bytes.
Source: `src/serialize.h` `WriteCompactSize`
Kind: D
Fidelity: the count is a `Nat` (a `uint64_t` in the source; the counts written are sizes of
vectors, far below `2^64`) -/
def writeCompactSize (nSize : Nat) : List UInt8 :=
  if nSize < 253 then serWritedata8 (UInt8.ofNat nSize)
  else if nSize ≤ 0xFFFF then serWritedata8 253 ++ serWritedata16 (UInt16.ofNat nSize)
  else if nSize ≤ 0xFFFFFFFF then serWritedata8 254 ++ serWritedata32 (UInt32.ofNat nSize)
  else serWritedata8 255 ++ serWritedata64 (UInt64.ofNat nSize)

/-- The exception of a count written in more bytes than it needs.
Source: `src/serialize.h` `ReadCompactSize`
Kind: D -/
def nonCanonical : Fault := .raise "non-canonical ReadCompactSize()"

/-- The count `ReadCompactSize` reads before its check against `MAX_SIZE`: the marker, then the
count in the width the marker names, refused when a narrower form would have held it.
Source: `src/serialize.h` `ReadCompactSize`
Kind: D -/
def readCompactSizeRet : Reader Nat := do
  let chSize ← serReaddata8
  if chSize < 253 then pure chSize.toNat
  else if chSize = 253 then do
    let n ← serReaddata16
    if n.toNat < 253 then throw nonCanonical else pure n.toNat
  else if chSize = 254 then do
    let n ← serReaddata32
    if n.toNat < 0x10000 then throw nonCanonical else pure n.toNat
  else do
    let n ← serReaddata64
    if n.toNat < 0x100000000 then throw nonCanonical else pure n.toNat

/-- The exception of a count above `MAX_SIZE`.
Source: `src/serialize.h` `ReadCompactSize`
Kind: D -/
def sizeTooLarge : Fault := .raise "ReadCompactSize(): size too large"

/-- `ReadCompactSize`: the count, and the check against `MAX_SIZE`.
Source: `src/serialize.h` `ReadCompactSize`
Kind: D -/
def readCompactSize : Reader Nat := do
  let nSizeRet ← readCompactSizeRet
  if nSizeRet > maxSize then throw sizeTooLarge
  pure nSizeRet

/-! ## `VARINT` -/

/-- The loop of `WriteVarInt` from `tmp[len]` on, with `out` the bytes `tmp[len-1], …, tmp[0]`
already filled: each byte holds seven bits of `n`, all but `tmp[0]` with the high bit set, and
the bytes go out from the last one filled.
Source: `src/serialize.h` `WriteVarInt`
Kind: D
Fidelity: `n & 0x7F` and `n >> 7` of the source's two's complement are `n % 128` and `n / 128`
(the shift is reached only for `n > 0x7F`) -/
def writeVarIntLoop (n : Int) (len : Nat) (out : List UInt8) : List UInt8 :=
  let tmp : UInt8 := UInt8.ofNat (n % 128).toNat ||| (if len = 0 then 0x00 else 0x80)
  if n ≤ 0x7F then tmp :: out else writeVarIntLoop (n / 128 - 1) (len + 1) (tmp :: out)
termination_by n.toNat
decreasing_by omega

/-- `WriteVarInt`: the base-128 digits of `n` with one subtracted from all but the last.
Source: `src/serialize.h` `WriteVarInt`
Kind: D -/
def writeVarInt (n : Int) : List UInt8 := writeVarIntLoop n 0 []

/-- The loop of `ReadVarInt<I>` from the value `n` read so far, for a type `I` whose largest
value is `maxI`: a byte, the check that the shift cannot overflow, seven bits, and on a
continuation bit the check that the increment cannot.
Source: `src/serialize.h` `ReadVarInt`
Kind: D -/
def readVarIntLoop (maxI : Nat) (n : Nat) : List UInt8 → Except Fault (Nat × List UInt8)
  | [] => .error endOfData
  | chData :: s =>
    if n > maxI / 128 then .error (.raise "ReadVarInt(): size too large")
    else
      let n := n * 128 + (chData &&& 0x7F).toNat
      if chData &&& 0x80 ≠ 0 then
        if n = maxI then .error (.raise "ReadVarInt(): size too large")
        else readVarIntLoop maxI (n + 1) s
      else .ok (n, s)

/-- `ReadVarInt<I>`, for a type whose largest value is `maxI`.
Source: `src/serialize.h` `ReadVarInt`
Kind: D -/
def readVarInt (maxI : Nat) : Reader Nat := fun s => readVarIntLoop maxI 0 s

/-! ## Byte strings, vectors and blobs -/

/-- `Serialize` of a `std::vector<unsigned char>`, a `prevector<N, unsigned char>` (a `CScript`)
or a `std::string`: the size, then the bytes.
Source: `src/serialize.h` `Serialize_impl(Stream&, const std::vector<T, A>&, const unsigned
char&)`, `Serialize_impl(Stream&, const prevector<N, T>&, const unsigned char&)`,
`Serialize(Stream&, const std::basic_string<C>&)`
Kind: D -/
def serializeBytes (v : List UInt8) : List UInt8 := writeCompactSize v.length ++ v

/-- `Unserialize` of them: the size, then as many bytes (the vectors read them in blocks of at
most 5000000, and a block past the end fails as one read would).
Source: `src/serialize.h` `Unserialize_impl(Stream&, std::vector<T, A>&, const unsigned
char&)`, `Unserialize_impl(Stream&, prevector<N, T>&, const unsigned char&)`,
`Unserialize(Stream&, std::basic_string<C>&)`
Kind: D -/
def unserializeBytes : Reader (List UInt8) := do
  let nSize ← readCompactSize
  readBytes endOfData nSize

/-- `Serialize` of a `std::vector<T>` of objects: the size, then each element.
Source: `src/serialize.h` `Serialize_impl(Stream&, const std::vector<T, A>&, const V&)`
Kind: D -/
def serializeVector {α : Type} (ser : α → List UInt8) (v : List α) : List UInt8 :=
  writeCompactSize v.length ++ v.flatMap ser

/-- `Unserialize` of a `std::vector<T>` of objects: the size, then each element into a
default-constructed one (in batches, which read the same elements in the same order).
Source: `src/serialize.h` `Unserialize_impl(Stream&, std::vector<T, A>&, const V&)`
Kind: D -/
def unserializeVector {α : Type} (r : Reader α) : Reader (List α) := do
  let nSize ← readCompactSize
  readMany r nSize

/-- `base_blob::Serialize` of a `uint256`: its 32 bytes `data`.
Source: `src/uint256.h` `base_blob::Serialize`
Kind: D -/
def serializeUint256 (h : Uint256) : List UInt8 := h.bytes

/-- `base_blob::Unserialize` of a `uint256`: 32 bytes into `data`.
Source: `src/uint256.h` `base_blob::Unserialize`
Kind: D -/
def unserializeUint256 : Reader Uint256 :=
  (fun data => Uint256.ofNat (beValue data)) <$> readBytes endOfData 32

/-- `base_blob::Serialize` of a `uint48`: its six bytes `data`.
Source: `src/uint256.h` `base_blob::Serialize`
Kind: D -/
def serializeUint48 (h : Uint48) : List UInt8 := beBytes 6 h.val.val

/-- `base_blob::Unserialize` of a `uint48`. Source: `src/uint256.h`. Kind: D -/
def unserializeUint48 : Reader Uint48 :=
  (fun data => Uint48.ofNat (beValue data)) <$> readBytes endOfData 6

/-! ## Fixed-width integers read back -/

/-- A number below `256 ^ n` reads back from its `n` bytes.
Source: `src/serialize.h` `ser_writedata*`, `ser_readdata*`
Kind: L -/
theorem reads_serReaddata {n x : Nat} (h : x < 256 ^ n) :
    Reads (serReaddata n) (serWritedata n x) x :=
  reads_readLE endOfData h

/-- Source: `src/serialize.h` `ser_readdata8`, `ser_writedata8`. Kind: L -/
theorem reads_serReaddata8 (x : UInt8) : Reads serReaddata8 (serWritedata8 x) x :=
  ((reads_serReaddata x.toNat_lt).map UInt8.ofNat).of_eq rfl UInt8.ofNat_toNat

/-- Source: `src/serialize.h` `ser_readdata16`, `ser_writedata16`. Kind: L -/
theorem reads_serReaddata16 (x : UInt16) : Reads serReaddata16 (serWritedata16 x) x :=
  ((reads_serReaddata x.toNat_lt).map UInt16.ofNat).of_eq rfl UInt16.ofNat_toNat

/-- Source: `src/serialize.h` `ser_readdata32`, `ser_writedata32`. Kind: L -/
theorem reads_serReaddata32 (x : UInt32) : Reads serReaddata32 (serWritedata32 x) x :=
  ((reads_serReaddata x.toNat_lt).map UInt32.ofNat).of_eq rfl UInt32.ofNat_toNat

/-- Source: `src/serialize.h` `ser_readdata64`, `ser_writedata64`. Kind: L -/
theorem reads_serReaddata64 (x : UInt64) : Reads serReaddata64 (serWritedata64 x) x :=
  ((reads_serReaddata x.toNat_lt).map UInt64.ofNat).of_eq rfl UInt64.ofNat_toNat

/-- Source: `src/serialize.h` `Unserialize(Stream&, int32_t&)`. Kind: L -/
theorem reads_unserializeInt32 (a : Int32) : Reads unserializeInt32 (serializeInt32 a) a :=
  ((reads_serReaddata32 a.toUInt32).map UInt32.toInt32).of_eq rfl (Int32.toInt32_toUInt32 a)

/-- Source: `src/serialize.h` `Unserialize(Stream&, int64_t&)`. Kind: L -/
theorem reads_unserializeInt64 (a : Int64) : Reads unserializeInt64 (serializeInt64 a) a :=
  ((reads_serReaddata64 a.toUInt64).map UInt64.toInt64).of_eq rfl (Int64.toInt64_toUInt64 a)

/-- Source: `src/serialize.h` `ser_writedata32` and the other widths. Kind: L -/
@[simp] theorem length_serWritedata (n obj : Nat) : (serWritedata n obj).length = n :=
  length_leBytes n obj

/-! ## Counts read back -/

/-- Every count below `2^64` reads back from the form `WriteCompactSize` chose for it.
Source: `src/serialize.h` `WriteCompactSize`, `ReadCompactSize`
Kind: L -/
theorem reads_readCompactSizeRet {n : Nat} (h : n < 2 ^ 64) :
    Reads readCompactSizeRet (writeCompactSize n) n := by
  unfold writeCompactSize readCompactSizeRet
  by_cases h1 : n < 253
  · -- one byte
    have hb : (UInt8.ofNat n).toNat = n := by rw [UInt8.toNat_ofNat']; omega
    rw [if_pos h1]
    refine Reads.of_eq ((reads_serReaddata8 _).bind ?_) (List.append_nil _) rfl
    rw [if_pos (UInt8.lt_iff_toNat_lt.2 (by rw [hb]; exact h1)), hb]
    exact Reads.pure n
  by_cases h2 : n ≤ 0xFFFF
  · -- the marker 253 and two bytes
    have hb : (UInt16.ofNat n).toNat = n := by rw [UInt16.toNat_ofNat']; omega
    rw [if_neg h1, if_pos h2]
    refine (reads_serReaddata8 253).bind ?_
    rw [if_neg (by decide), if_pos rfl]
    refine Reads.of_eq ((reads_serReaddata16 _).bind ?_) (List.append_nil _) rfl
    rw [hb, if_neg h1]
    exact Reads.pure n
  by_cases h3 : n ≤ 0xFFFFFFFF
  · -- the marker 254 and four bytes
    have hb : (UInt32.ofNat n).toNat = n := by rw [UInt32.toNat_ofNat']; omega
    rw [if_neg h1, if_neg h2, if_pos h3]
    refine (reads_serReaddata8 254).bind ?_
    rw [if_neg (by decide), if_neg (by decide), if_pos rfl]
    refine Reads.of_eq ((reads_serReaddata32 _).bind ?_) (List.append_nil _) rfl
    rw [hb, if_neg (by omega)]
    exact Reads.pure n
  · -- the marker 255 and eight bytes
    have hb : (UInt64.ofNat n).toNat = n := by rw [UInt64.toNat_ofNat']; omega
    rw [if_neg h1, if_neg h2, if_neg h3]
    refine (reads_serReaddata8 255).bind ?_
    rw [if_neg (by decide), if_neg (by decide), if_neg (by decide)]
    refine Reads.of_eq ((reads_serReaddata64 _).bind ?_) (List.append_nil _) rfl
    rw [hb, if_neg (by omega)]
    exact Reads.pure n

/-- **Every count up to `MAX_SIZE` reads back.**
Source: `src/serialize.h` `WriteCompactSize`, `ReadCompactSize`
Kind: L -/
theorem reads_readCompactSize {n : Nat} (h : n ≤ maxSize) :
    Reads readCompactSize (writeCompactSize n) n := by
  have hret := reads_readCompactSizeRet (show n < 2 ^ 64 by simp only [maxSize] at h; omega)
  refine Reads.of_eq (hret.bind ?_) (List.append_nil _) rfl
  rw [if_neg (Nat.not_lt.2 h)]
  exact Reads.pure n

/-- **A count above `MAX_SIZE` is refused**, whatever follows it.
Source: `src/serialize.h` `ReadCompactSize`
Kind: L -/
theorem readCompactSize_of_gt {n : Nat} (h : maxSize < n) (h' : n < 2 ^ 64)
    (rest : List UInt8) : readCompactSize.run (writeCompactSize n ++ rest) = .error sizeTooLarge := by
  rw [readCompactSize, run_bind_of_ok (reads_readCompactSizeRet h' rest), if_pos h]
  rfl

/-! ## `VARINT`s read back -/

/-- The seven bits and the flag of a byte `WriteVarInt` fills.
Source: `src/serialize.h` `WriteVarInt`, `ReadVarInt`
Kind: L -/
theorem varIntByte_bits {k : Nat} (hk : k < 128) (len : Nat) :
    ((UInt8.ofNat k ||| (if len = 0 then 0x00 else 0x80)) &&& 0x7F).toNat = k ∧
      ((UInt8.ofNat k ||| (if len = 0 then 0x00 else 0x80)) &&& 0x80 ≠ 0 ↔ len ≠ 0) := by
  have key : ∀ x : Fin 128, ((UInt8.ofNat x ||| 0x00) &&& 0x7F).toNat = x ∧
      (UInt8.ofNat x ||| 0x00) &&& 0x80 = 0 ∧ ((UInt8.ofNat x ||| 0x80) &&& 0x7F).toNat = x ∧
      (UInt8.ofNat x ||| 0x80) &&& 0x80 ≠ 0 := by decide
  obtain ⟨h₀, h₀', h₁, h₁'⟩ := key ⟨k, hk⟩
  by_cases hlen : len = 0
  · rw [if_pos hlen]
    exact ⟨h₀, fun h => absurd h₀' h, fun h => absurd hlen h⟩
  · rw [if_neg hlen]
    exact ⟨h₁, fun _ => hlen, fun _ => h₁'⟩

/-- The reader's turn on a byte `WriteVarInt` filled with the seven bits `k`, from a value `m`
that the shift does not overflow.
Source: `src/serialize.h` `ReadVarInt`
Kind: L -/
theorem readVarIntLoop_cons {maxI m k : Nat} (hm : m ≤ maxI / 128) (hk : k < 128) (len : Nat)
    (s : List UInt8) :
    readVarIntLoop maxI m ((UInt8.ofNat k ||| (if len = 0 then 0x00 else 0x80)) :: s) =
      if len = 0 then .ok (m * 128 + k, s)
      else if m * 128 + k = maxI then .error (.raise "ReadVarInt(): size too large")
      else readVarIntLoop maxI (m * 128 + k + 1) s := by
  obtain ⟨hbits, hflag⟩ := varIntByte_bits hk len
  rw [readVarIntLoop, if_neg (by omega)]
  simp only [hbits]
  by_cases hlen : len = 0
  · rw [if_neg (by rw [hflag]; exact not_not.2 hlen), if_pos hlen]
  · rw [if_pos (hflag.2 hlen), if_neg hlen]

/-- The bytes `WriteVarInt`'s loop writes for `n` from `tmp[len]` on read back to `n`: the reader
stops after them when `len = 0`, and goes on from `n + 1` otherwise. The induction follows the
writer's loop; the reader's value before the byte of a digit is the writer's next `n` plus one.
Source: `src/serialize.h` `WriteVarInt`, `ReadVarInt`
Kind: L -/
theorem readVarIntLoop_writeVarIntLoop {maxI : Nat} :
    ∀ (n : Int) (len : Nat) (out rest : List UInt8), 0 ≤ n → n ≤ maxI → (len ≠ 0 → n < maxI) →
      readVarIntLoop maxI 0 (writeVarIntLoop n len out ++ rest) =
        if len = 0 then .ok (n.toNat, out ++ rest)
        else readVarIntLoop maxI (n.toNat + 1) (out ++ rest) := by
  intro n
  induction hk : n.toNat using Nat.strong_induction_on generalizing n with
  | _ k ih =>
    intro len out rest h0 hmax hlt
    subst hk
    have hk128 : (n % 128).toNat < 128 := by omega
    rw [writeVarIntLoop]
    by_cases hsmall : n ≤ 0x7F
    · -- one digit: the byte is the last one read
      rw [if_pos hsmall, List.cons_append, readVarIntLoop_cons (Nat.zero_le _) hk128]
      have hval : 0 * 128 + (n % 128).toNat = n.toNat := by omega
      rw [hval]
      by_cases hlen : len = 0
      · rw [if_pos hlen, if_pos hlen]
      · rw [if_neg hlen, if_neg hlen, if_neg (by omega)]
    · -- the higher digits first, then this one from their value plus one
      rw [if_neg hsmall, ih (n / 128 - 1).toNat (by omega) (n / 128 - 1) rfl (len + 1)
          (_ :: out) rest (by omega) (by omega) (fun _ => by omega),
        if_neg (Nat.succ_ne_zero len), List.cons_append,
        readVarIntLoop_cons (show (n / 128 - 1).toNat + 1 ≤ maxI / 128 by omega) hk128]
      have hval : ((n / 128 - 1).toNat + 1) * 128 + (n % 128).toNat = n.toNat := by omega
      rw [hval]
      by_cases hlen : len = 0
      · rw [if_pos hlen, if_pos hlen]
      · rw [if_neg hlen, if_neg hlen, if_neg (by omega)]

/-- **Every value of the reader's type reads back from its `VARINT`.**
Source: `src/serialize.h` `WriteVarInt`, `ReadVarInt`
Kind: L -/
theorem reads_readVarInt {maxI : Nat} {n : Int} (h0 : 0 ≤ n) (h : n ≤ maxI) :
    Reads (readVarInt maxI) (writeVarInt n) n.toNat := fun rest => by
  have hloop := readVarIntLoop_writeVarIntLoop n 0 [] rest h0 h (fun h => absurd rfl h)
  rwa [if_pos rfl, List.nil_append] at hloop

/-- A negative `int` is written as the one byte of its low seven bits, and reads back as them.
Source: `src/serialize.h` `WriteVarInt`, `ReadVarInt`
Kind: L -/
theorem reads_readVarInt_of_neg {maxI : Nat} {n : Int} (h : n < 0) :
    Reads (readVarInt maxI) (writeVarInt n) (n % 128).toNat := fun rest => by
  have hk128 : (n % 128).toNat < 128 := by omega
  show readVarIntLoop maxI 0 (writeVarIntLoop n 0 [] ++ rest) = _
  rw [writeVarIntLoop, if_pos (by omega), List.cons_append, List.nil_append,
    readVarIntLoop_cons (Nat.zero_le _) hk128, if_pos rfl, Nat.zero_mul, Nat.zero_add]

/-- The value `ReadVarInt` reads back from `WriteVarInt(n)`: `n`, or the low seven bits of a
negative `n`.
Source: `src/serialize.h` `WriteVarInt`, `ReadVarInt`
Kind: D -/
def varIntReadBack (n : Int) : Nat := if 0 ≤ n then n.toNat else (n % 128).toNat

/-- Every value up to the reader type's largest reads back from its `VARINT`, as
`varIntReadBack`.
Source: `src/serialize.h` `WriteVarInt`, `ReadVarInt`
Kind: L -/
theorem reads_readVarInt_readBack {maxI : Nat} {n : Int} (h : n ≤ maxI) :
    Reads (readVarInt maxI) (writeVarInt n) (varIntReadBack n) := by
  unfold varIntReadBack
  split
  · exact reads_readVarInt ‹_› h
  · exact reads_readVarInt_of_neg (Int.lt_of_not_ge ‹_›)

/-! ## Byte strings and vectors read back -/

/-- Source: `src/serialize.h` `Serialize_impl`, `Unserialize_impl` (bytes). Kind: L -/
theorem reads_unserializeBytes {v : List UInt8} (h : v.length ≤ maxSize) :
    Reads unserializeBytes (serializeBytes v) v :=
  (reads_readCompactSize h).bind (reads_readBytes endOfData v)

/-- A byte string longer than `MAX_SIZE` does not read back.
Source: `src/serialize.h` `ReadCompactSize`
Kind: L -/
theorem unserializeBytes_of_gt {v : List UInt8} (h : maxSize < v.length) (h' : v.length < 2 ^ 64)
    (rest : List UInt8) : unserializeBytes.run (serializeBytes v ++ rest) = .error sizeTooLarge := by
  rw [unserializeBytes, serializeBytes, List.append_assoc]
  exact run_bind_of_error (readCompactSize_of_gt h h' _)

/-- A vector of up to `MAX_SIZE` objects reads back, each as its reader reads it.
Source: `src/serialize.h` `Serialize_impl`, `Unserialize_impl` (objects)
Kind: L -/
theorem reads_unserializeVector {α β : Type} {r : Reader β} {ser : α → List UInt8} {g : α → β}
    {v : List α} (hlen : v.length ≤ maxSize) (h : ∀ a ∈ v, Reads r (ser a) (g a)) :
    Reads (unserializeVector r) (serializeVector ser v) (v.map g) :=
  (reads_readCompactSize hlen).bind (reads_readMany h)

/-- A vector whose first element does not read back does not read back.
Source: `src/serialize.h` `Unserialize_impl` (objects)
Kind: L -/
theorem unserializeVector_of_head {α β : Type} {r : Reader β} {ser : α → List UInt8} {a : α}
    {as : List α} {e : Fault} (hlen : (a :: as).length ≤ maxSize)
    (h : ∀ rest, r.run (ser a ++ rest) = .error e) (rest : List UInt8) :
    (unserializeVector r).run (serializeVector ser (a :: as) ++ rest) = .error e := by
  rw [serializeVector, List.flatMap_cons, List.append_assoc, List.append_assoc]
  unfold unserializeVector
  refine (reads_readCompactSize hlen).run_bind_error ?_
  rw [List.length_cons, readMany]
  exact run_bind_of_error (h _)

/-- A vector of byte strings, each of up to `MAX_SIZE` bytes, reads back.
Source: `src/serialize.h` `Serialize_impl`, `Unserialize_impl`
Kind: L -/
theorem reads_unserializeVector_bytes {v : List (List UInt8)} (hlen : v.length ≤ maxSize)
    (h : ∀ a ∈ v, a.length ≤ maxSize) :
    Reads (unserializeVector unserializeBytes) (serializeVector serializeBytes v) v :=
  (reads_unserializeVector (g := id) hlen fun a ha => reads_unserializeBytes (h a ha)).of_eq rfl
    (List.map_id v)

/-! ## Blobs read back -/

/-- Source: `src/uint256.h` `base_blob::Serialize`, `base_blob::Unserialize`. Kind: L -/
theorem reads_unserializeUint256 (h : Uint256) :
    Reads unserializeUint256 (serializeUint256 h) h := by
  have hbytes := reads_readBytes endOfData h.bytes
  rw [Uint256.length_bytes] at hbytes
  refine (hbytes.map _).of_eq rfl ?_
  have hval : beValue h.bytes = h.val.val := by
    rw [Uint256.bytes_eq_beBytes, beValue_beBytes,
      Nat.mod_eq_of_lt (lt_of_lt_of_eq h.val.isLt (by norm_num))]
  rw [hval, Uint256.ofNat, Fin.ofNat_val_eq_self]

/-- Source: `src/uint256.h` `base_blob::Serialize`, `base_blob::Unserialize`. Kind: L -/
theorem reads_unserializeUint48 (h : Uint48) :
    Reads unserializeUint48 (serializeUint48 h) h := by
  have hbytes := reads_readBytes endOfData (beBytes 6 h.val.val)
  rw [length_beBytes] at hbytes
  refine (hbytes.map _).of_eq rfl ?_
  have hval : beValue (beBytes 6 h.val.val) = h.val.val := by
    rw [beValue_beBytes, Nat.mod_eq_of_lt (lt_of_lt_of_eq h.val.isLt (by norm_num))]
  rw [hval, Uint48.ofNat, Fin.ofNat_val_eq_self]

/-! ## The readers accept only canonical encodings -/

/-- Every fixed-width read consumed the `n` bytes of the number it read.
Source: `src/serialize.h` `ser_readdata32` and the other widths
Kind: L -/
theorem canonical_serReaddata (n : Nat) : Canonical (serReaddata n) (serWritedata n) :=
  fun _ _ _ h => (readLE_eq_ok h).2

/-- Writing a number writes its low bytes only.
Source: `src/serialize.h` `ser_writedata32` and the other widths
Kind: L -/
theorem serWritedata_mod (n x : Nat) : serWritedata n (x % 256 ^ n) = serWritedata n x :=
  leBytes_mod n x

/-- Source: `src/serialize.h` `ser_readdata8`. Kind: L -/
theorem canonical_serReaddata8 : Canonical serReaddata8 serWritedata8 :=
  (canonical_serReaddata 1).map fun a => by
    rw [serWritedata8, UInt8.toNat_ofNat', show 2 ^ 8 = 256 ^ 1 by norm_num, serWritedata_mod]

/-- Source: `src/serialize.h` `ser_readdata16`. Kind: L -/
theorem canonical_serReaddata16 : Canonical serReaddata16 serWritedata16 :=
  (canonical_serReaddata 2).map fun a => by
    rw [serWritedata16, UInt16.toNat_ofNat', show 2 ^ 16 = 256 ^ 2 by norm_num, serWritedata_mod]

/-- Source: `src/serialize.h` `ser_readdata32`. Kind: L -/
theorem canonical_serReaddata32 : Canonical serReaddata32 serWritedata32 :=
  (canonical_serReaddata 4).map fun a => by
    rw [serWritedata32, UInt32.toNat_ofNat', show 2 ^ 32 = 256 ^ 4 by norm_num, serWritedata_mod]

/-- Source: `src/serialize.h` `ser_readdata64`. Kind: L -/
theorem canonical_serReaddata64 : Canonical serReaddata64 serWritedata64 :=
  (canonical_serReaddata 8).map fun a => by
    rw [serWritedata64, UInt64.toNat_ofNat', show 2 ^ 64 = 256 ^ 8 by norm_num, serWritedata_mod]

/-- Source: `src/serialize.h` `Unserialize(Stream&, int32_t&)`. Kind: L -/
theorem canonical_unserializeInt32 : Canonical unserializeInt32 serializeInt32 :=
  canonical_serReaddata32.map fun x => by rw [serializeInt32, UInt32.toUInt32_toInt32]

/-- Source: `src/serialize.h` `Unserialize(Stream&, int64_t&)`. Kind: L -/
theorem canonical_unserializeInt64 : Canonical unserializeInt64 serializeInt64 :=
  canonical_serReaddata64.map fun x => by rw [serializeInt64, UInt64.toUInt64_toInt64]

/-- Source: `src/uint256.h` `base_blob::Unserialize`. Kind: L -/
theorem canonical_unserializeUint256 : Canonical unserializeUint256 serializeUint256 := by
  intro s h s' hrun
  obtain ⟨data, hdata, rfl⟩ := run_map_eq_ok hrun
  obtain ⟨hlen, rfl⟩ := readBytes_eq_ok hdata
  have hlt : beValue data < 2 ^ 256 := lt_of_lt_of_eq (beValue_lt data) (by rw [hlen]; norm_num)
  rw [serializeUint256, Uint256.bytes_eq_beBytes, Uint256.ofNat, Fin.val_ofNat,
    Nat.mod_eq_of_lt hlt, ← hlen, beBytes_beValue]

/-- Source: `src/uint256.h` `base_blob::Unserialize`. Kind: L -/
theorem canonical_unserializeUint48 : Canonical unserializeUint48 serializeUint48 := by
  intro s h s' hrun
  obtain ⟨data, hdata, rfl⟩ := run_map_eq_ok hrun
  obtain ⟨hlen, rfl⟩ := readBytes_eq_ok hdata
  have hlt : beValue data < 2 ^ 48 := lt_of_lt_of_eq (beValue_lt data) (by rw [hlen]; norm_num)
  rw [serializeUint48, Uint48.ofNat, Fin.val_ofNat, Nat.mod_eq_of_lt hlt, ← hlen, beBytes_beValue]

/-- **A count that `ReadCompactSize` accepted was written in its shortest form**: the
refusals of non-canonical counts leave one encoding for each.
Source: `src/serialize.h` `ReadCompactSize`
Kind: L -/
theorem canonical_readCompactSizeRet : Canonical readCompactSizeRet writeCompactSize := by
  intro s n s' h
  unfold readCompactSizeRet at h
  obtain ⟨ch, s₁, rfl, h₁⟩ := canonical_serReaddata8.bind_run h
  have hch := ch.toNat_lt
  split at h₁
  · -- one byte
    obtain ⟨rfl, rfl⟩ := run_pure_eq_ok h₁
    have hlt : ch.toNat < 253 := UInt8.lt_iff_toNat_lt.1 ‹_›
    rw [writeCompactSize, if_pos hlt, UInt8.ofNat_toNat]
  split at h₁
  · -- the marker 253 and two bytes
    obtain ⟨v, s₂, rfl, h₂⟩ := canonical_serReaddata16.bind_run h₁
    have hv := v.toNat_lt
    split at h₂
    · cases h₂
    obtain ⟨rfl, rfl⟩ := run_pure_eq_ok h₂
    rw [writeCompactSize, if_neg ‹_›, if_pos (by omega), UInt16.ofNat_toNat, ‹ch = 253›,
      List.append_assoc]
  split at h₁
  · -- the marker 254 and four bytes
    obtain ⟨v, s₂, rfl, h₂⟩ := canonical_serReaddata32.bind_run h₁
    have hv := v.toNat_lt
    split at h₂
    · cases h₂
    obtain ⟨rfl, rfl⟩ := run_pure_eq_ok h₂
    rw [writeCompactSize, if_neg (by omega), if_neg (by omega), if_pos (by omega),
      UInt32.ofNat_toNat, ‹ch = 254›, List.append_assoc]
  · -- the marker 255 and eight bytes
    obtain ⟨v, s₂, rfl, h₂⟩ := canonical_serReaddata64.bind_run h₁
    have h255 : ch = 255 := by
      apply UInt8.toNat_inj.1
      have h1 : ch.toNat ≠ 253 := fun he => ‹¬ch = 253› (UInt8.toNat_inj.1 he)
      have h2 : ch.toNat ≠ 254 := fun he => ‹¬ch = 254› (UInt8.toNat_inj.1 he)
      have h3 : ¬ch.toNat < 253 := fun hl => ‹¬ch < 253› (UInt8.lt_iff_toNat_lt.2 hl)
      simp only [UInt8.reduceToNat]
      omega
    split at h₂
    · cases h₂
    obtain ⟨rfl, rfl⟩ := run_pure_eq_ok h₂
    rw [writeCompactSize, if_neg (by omega), if_neg (by omega), if_neg (by omega),
      UInt64.ofNat_toNat, h255, List.append_assoc]

/-- A count `ReadCompactSize` accepted is at most `MAX_SIZE` and was written canonically.
Source: `src/serialize.h` `ReadCompactSize`
Kind: L -/
theorem readCompactSize_eq_ok {n : Nat} {s s' : List UInt8}
    (h : readCompactSize.run s = .ok (n, s')) : n ≤ maxSize ∧ s = writeCompactSize n ++ s' := by
  obtain ⟨m, s₁, rfl, h₁⟩ := canonical_readCompactSizeRet.bind_run h
  split at h₁
  · cases h₁
  obtain ⟨rfl, rfl⟩ := run_pure_eq_ok h₁
  exact ⟨Nat.not_lt.1 ‹_›, rfl⟩

/-- A byte string that read is at most `MAX_SIZE` long and was written as `Serialize` writes it.
Source: `src/serialize.h` `Unserialize_impl` (bytes)
Kind: L -/
theorem unserializeBytes_eq_ok {v s s' : List UInt8} (h : unserializeBytes.run s = .ok (v, s')) :
    v.length ≤ maxSize ∧ s = serializeBytes v ++ s' := by
  obtain ⟨n, s₁, hn, h₁⟩ := run_bind_eq_ok h
  obtain ⟨hle, rfl⟩ := readCompactSize_eq_ok hn
  obtain ⟨hlen, rfl⟩ := readBytes_eq_ok h₁
  rw [serializeBytes, hlen, List.append_assoc]
  exact ⟨hle, rfl⟩

end BwsCoin.Serialize
