import BwsCoin.Basic

/-!
# Scripts: opcodes, `GetOp`, pushes and script numbers

A `CScript` (`src/script/script.h`) is a byte string; an iterator into it is modelled by the
bytes from the iterator to the end, so `pc < end()` is `pc ≠ []` and advancing consumes bytes.

* `getOp2` — `CScript::GetOp2`: one instruction, its pushed data, and the iterator after it;
  `getOp2_pc_lt` says it always consumes a byte, which is what every scanning loop of
  `standard.cpp` terminates by.
* `pushBytes` — `CScript::operator<<(std::vector<unsigned char>)`, the push encoding;
  `getOp2_pushBytes` reads it back.
* `isPushOnly`, `isPayToScriptHash`, `isWitnessProgram` — the script predicates `Solver` asks.
* `CScriptNum.ofBytes` — the `CScriptNum(vch, fRequireMinimal, nMaxNumSize)` constructor, which
  throws `scriptnum_error` on an item longer than `nMaxNumSize` bytes.
-/

namespace BwsCoin.Script

/-! ## Opcodes

The values of `enum opcodetype` that the modelled functions read. -/

/-- Source: `src/script/script.h` `OP_0`. Kind: D -/
def op0 : UInt8 := 0x00
/-- Source: `src/script/script.h` `OP_PUSHDATA1`. Kind: D -/
def opPushdata1 : UInt8 := 0x4c
/-- Source: `src/script/script.h` `OP_PUSHDATA2`. Kind: D -/
def opPushdata2 : UInt8 := 0x4d
/-- Source: `src/script/script.h` `OP_PUSHDATA4`. Kind: D -/
def opPushdata4 : UInt8 := 0x4e
/-- Source: `src/script/script.h` `OP_1`. Kind: D -/
def op1 : UInt8 := 0x51
/-- Source: `src/script/script.h` `OP_16`. Kind: D -/
def op16 : UInt8 := 0x60
/-- Source: `src/script/script.h` `OP_RETURN`. Kind: D -/
def opReturn : UInt8 := 0x6a
/-- Source: `src/script/script.h` `OP_DUP`. Kind: D -/
def opDup : UInt8 := 0x76
/-- Source: `src/script/script.h` `OP_EQUAL`. Kind: D -/
def opEqual : UInt8 := 0x87
/-- Source: `src/script/script.h` `OP_EQUALVERIFY`. Kind: D -/
def opEqualverify : UInt8 := 0x88
/-- Source: `src/script/script.h` `OP_HASH160`. Kind: D -/
def opHash160 : UInt8 := 0xa9
/-- Source: `src/script/script.h` `OP_CHECKSIG`. Kind: D -/
def opChecksig : UInt8 := 0xac
/-- Source: `src/script/script.h` `OP_CHECKMULTISIG`. Kind: D -/
def opCheckmultisig : UInt8 := 0xae
/-- Source: `src/script/script.h` `OP_STRUCT`. Kind: D -/
def opStruct : UInt8 := 0xc0
/-- Source: `src/script/script.h` `OP_SMALLINTEGER` (a template-matching pseudo-opcode). Kind: D -/
def opSmallinteger : UInt8 := 0xfa
/-- Source: `src/script/script.h` `OP_PUBKEYS` (a template-matching pseudo-opcode). Kind: D -/
def opPubkeys : UInt8 := 0xfb
/-- Source: `src/script/script.h` `OP_PUBKEYHASH` (a template-matching pseudo-opcode). Kind: D -/
def opPubkeyhash : UInt8 := 0xfd
/-- Source: `src/script/script.h` `OP_PUBKEY` (a template-matching pseudo-opcode). Kind: D -/
def opPubkey : UInt8 := 0xfe
/-- Source: `src/script/script.h` `OP_INVALIDOPCODE`. Kind: D -/
def opInvalidopcode : UInt8 := 0xff

/-- A script: its bytes.
Source: `src/script/script.h` `CScript` (a `prevector<28, unsigned char>`)
Kind: D -/
abbrev CScript := List UInt8

/-! ## Reading one instruction -/

/-- `ReadLE16`. Source: `src/crypto/common.h` `ReadLE16`. Kind: D -/
def readLE16 (b0 b1 : UInt8) : Nat := b0.toNat + 256 * b1.toNat

/-- `ReadLE32`. Source: `src/crypto/common.h` `ReadLE32`. Kind: D -/
def readLE32 (b0 b1 b2 b3 : UInt8) : Nat :=
  b0.toNat + 256 * b1.toNat + 65536 * b2.toNat + 16777216 * b3.toNat

/-- The size of a push opcode's data and the iterator after the size bytes; `none` when the
size bytes run past the end.
Source: `src/script/script.h` `CScript::GetOp2` (the immediate-operand branch)
Kind: D
Fidelity: exact -/
def pushSize (opcode : UInt8) (pc : List UInt8) : Option (Nat × List UInt8) :=
  if opcode < opPushdata1 then some (opcode.toNat, pc)
  else if opcode = opPushdata1 then
    match pc with
    | b :: pc => some (b.toNat, pc)
    | [] => none
  else if opcode = opPushdata2 then
    match pc with
    | b0 :: b1 :: pc => some (readLE16 b0 b1, pc)
    | _ => none
  else
    match pc with
    | b0 :: b1 :: b2 :: b3 :: pc => some (readLE32 b0 b1 b2 b3, pc)
    | _ => none

/-- What `GetOp2` returns and writes: its result, `opcodeRet`, `*pvchRet` and the iterator.
Source: `src/script/script.h` `CScript::GetOp2`
Kind: D -/
structure GetOpResult where
  ok : Bool
  opcode : UInt8
  vch : List UInt8
  pc : List UInt8
  deriving DecidableEq, Repr

/-- `GetOp2(pc, opcodeRet, pvchRet)`: one instruction at `pc`. On failure `opcodeRet` is
`OP_INVALIDOPCODE`, the data is cleared, and the iterator stays where the read stopped.
Source: `src/script/script.h` `CScript::GetOp2`
Kind: D
Fidelity: exact -/
def getOp2 : List UInt8 → GetOpResult
  | [] => ⟨false, opInvalidopcode, [], []⟩
  | opcode :: pc =>
    if opcode ≤ opPushdata4 then
      match pushSize opcode pc with
      | none => ⟨false, opInvalidopcode, [], pc⟩
      | some (nSize, pc) =>
        if pc.length < nSize then ⟨false, opInvalidopcode, [], pc⟩
        else ⟨true, opcode, pc.take nSize, pc.drop nSize⟩
    else ⟨true, opcode, [], pc⟩

/-- Source: none: infrastructure. Kind: L -/
theorem pushSize_length_le {opcode : UInt8} {pc : List UInt8} {n : Nat} {rest : List UInt8}
    (h : pushSize opcode pc = some (n, rest)) : rest.length ≤ pc.length := by
  unfold pushSize at h
  split_ifs at h
  · simp only [Option.some.injEq, Prod.mk.injEq] at h
    rw [h.2]
  all_goals
    split at h
    · simp only [Option.some.injEq, Prod.mk.injEq] at h
      rw [← h.2]
      simp only [List.length_cons]
      omega
    · cases h

/-- `GetOp2` consumes at least the opcode byte, whether it succeeds or not.
Source: `src/script/script.h` `CScript::GetOp2`
Kind: L -/
theorem getOp2_pc_lt {pc : List UInt8} (h : pc ≠ []) : (getOp2 pc).pc.length < pc.length := by
  match pc, h with
  | opcode :: pc, _ =>
    simp only [getOp2]
    split_ifs
    · split
      · simp
      · next nSize rest hps =>
        have := pushSize_length_le hps
        split_ifs <;> simp <;> omega
    · simp

/-- A successful `GetOp2` consumes a byte.
Source: `src/script/script.h` `CScript::GetOp2`
Kind: L -/
theorem getOp2_pc_lt_of_ok {pc : List UInt8} (h : (getOp2 pc).ok = true) :
    (getOp2 pc).pc.length < pc.length := by
  cases pc with
  | nil => simp [getOp2] at h
  | cons b pc => exact getOp2_pc_lt (List.cons_ne_nil b pc)

/-! ## Pushes -/

/-- `WriteLE16` of a size. Source: `src/crypto/common.h` `WriteLE16`. Kind: D -/
def writeLE16 (n : Nat) : List UInt8 := [UInt8.ofNat n, UInt8.ofNat (n / 256)]

/-- `WriteLE32` of a size. Source: `src/crypto/common.h` `WriteLE32`. Kind: D -/
def writeLE32 (n : Nat) : List UInt8 :=
  [UInt8.ofNat n, UInt8.ofNat (n / 256), UInt8.ofNat (n / 65536), UInt8.ofNat (n / 16777216)]

/-- `script << b` for a byte vector `b`: the shortest push opcode for its size, then its bytes.
Source: `src/script/script.h` `CScript::operator<<(const std::vector<unsigned char>&)`
Kind: D
Fidelity: exact -/
def pushBytes (b : List UInt8) : List UInt8 :=
  (if b.length < opPushdata1.toNat then [UInt8.ofNat b.length]
    else if b.length ≤ 0xff then [opPushdata1, UInt8.ofNat b.length]
    else if b.length ≤ 0xffff then opPushdata2 :: writeLE16 b.length
    else opPushdata4 :: writeLE32 b.length) ++ b

/-! ## Script predicates -/

/-- `IsPushOnly(pc)`: every instruction from `pc` on reads and is at most `OP_16`.
Source: `src/script/script.cpp` `CScript::IsPushOnly`
Kind: D
Fidelity: exact -/
def isPushOnly (pc : List UInt8) : Bool :=
  if _h : pc = [] then true
  else if ¬ (getOp2 pc).ok then false
  else if (getOp2 pc).opcode > op16 then false
  else isPushOnly (getOp2 pc).pc
termination_by pc.length
decreasing_by exact getOp2_pc_lt (by assumption)

/-- `IsPayToScriptHash()`: `OP_HASH160 <20 bytes> OP_EQUAL`.
Source: `src/script/script.cpp` `CScript::IsPayToScriptHash`
Kind: D -/
def isPayToScriptHash (s : CScript) : Bool :=
  s.length = 23 && s[0]? = some opHash160 && s[1]? = some 0x14 && s[22]? = some opEqual

/-- `DecodeOP_N(opcode)`: the small integer of `OP_0`, `OP_1` .. `OP_16`.
Source: `src/script/script.h` `CScript::DecodeOP_N`
Kind: D
Fidelity: exact on `OP_0 .. OP_16`; its `assert` holds at both modelled call sites, which test the
opcode first -/
def decodeOpN (opcode : UInt8) : Int :=
  if opcode = op0 then 0 else (opcode.toNat : Int) - (op1.toNat - 1)

/-- `IsWitnessProgram(version, program)`: a one-byte version opcode and one push of the rest.
Source: `src/script/script.cpp` `CScript::IsWitnessProgram`
Kind: D
Fidelity: exact -/
def isWitnessProgram (s : CScript) : Option (Int × List UInt8) :=
  if s.length < 4 ∨ s.length > 42 then none
  else match s with
    | b0 :: b1 :: program =>
      if b0 ≠ op0 ∧ (b0 < op1 ∨ b0 > op16) then none
      else if b1.toNat + 2 = s.length then some (decodeOpN b0, program)
      else none
    | _ => none

/-! ## Script numbers -/

/-- A script number: its `int64_t` value.
Source: `src/script/script.h` `CScriptNum`
Kind: D -/
structure CScriptNum where
  mValue : Int
  deriving DecidableEq, Repr

/-- `set_vch`: the little-endian sign-magnitude value of at most eight bytes.
Source: `src/script/script.h` `CScriptNum::set_vch`
Kind: D
Fidelity: exact for the sizes the constructor admits (at most 8 bytes): the `|=` of the shifted
bytes is their sum, and clearing the sign bit subtracts it -/
def setVch (vch : List UInt8) : Int :=
  match vch.getLast? with
  | none => 0
  | some last =>
    let result : Nat := vch.foldr (fun b acc => b.toNat + 256 * acc) 0
    if last &&& 0x80 ≠ 0 then -((result : Int) - 0x80 * 256 ^ (vch.length - 1))
    else result

/-- `CScriptNum(vch, fRequireMinimal, nMaxNumSize)`: throws on an item longer than
`nMaxNumSize`, and on a non-minimal encoding when asked.
Source: `src/script/script.h` `CScriptNum::CScriptNum(const std::vector<unsigned char>&, bool,
const size_t)`
Kind: D
Fidelity: exact -/
def CScriptNum.ofBytes (vch : List UInt8) (fRequireMinimal : Bool) (nMaxNumSize : Nat) :
    Except Fault CScriptNum :=
  if vch.length > nMaxNumSize then .error (.raise "script number overflow")
  else if fRequireMinimal ∧ (vch.getLast?.map (· &&& 0x7f)) = some 0 ∧
      (vch.length ≤ 1 ∨ (vch[vch.length - 2]?.map (· &&& 0x80)) = some 0) then
    .error (.raise "non-minimally encoded script number")
  else .ok ⟨setVch vch⟩

/-- `nDefaultMaxNumSize`. Source: `src/script/script.h` `CScriptNum::nDefaultMaxNumSize`. Kind: D -/
def nDefaultMaxNumSize : Nat := 4

/-- `getint()`: the value clamped to `int`.
Source: `src/script/script.h` `CScriptNum::getint`
Kind: D -/
def CScriptNum.getint (n : CScriptNum) : Int :=
  if n.mValue > 2147483647 then 2147483647
  else if n.mValue < -2147483648 then -2147483648
  else n.mValue

/-- `nMaxNumSizeForInt64`: the size limit of script numbers that hold amounts.
Source: `src/script/script.h` `CScriptNum::nMaxNumSizeForInt64`
Kind: D -/
def nMaxNumSizeForInt64 : Nat := 8

/-- `getint64()`. Source: `src/script/script.h` `CScriptNum::getint64`. Kind: D -/
def CScriptNum.getint64 (n : CScriptNum) : Int := n.mValue

/-- The loop `while (absvalue) { result.push_back(absvalue & 0xff); absvalue >>= 8; }` of
`serialize`, run for at most `fuel` turns: the little-endian bytes of `absvalue`.
Source: `src/script/script.h` `CScriptNum::serialize`
Kind: D
Fidelity: exact with `fuel = 8`, as `absvalue` is a `uint64_t` -/
def magnitudeBytes : Nat → Nat → List UInt8
  | 0, _ => []
  | fuel + 1, absvalue =>
    if absvalue = 0 then []
    else UInt8.ofNat (absvalue % 256) :: magnitudeBytes fuel (absvalue / 256)

/-- `CScriptNum::serialize(value)`: the little-endian magnitude, and the sign in the top bit of
the last byte, in an extra byte where the magnitude's top bit is taken.
Source: `src/script/script.h` `CScriptNum::serialize`
Kind: D
Fidelity: exact above `INT64_MIN`, whose negation the source overflows -/
def CScriptNum.serialize (value : Int) : List UInt8 :=
  if value = 0 then []
  else
    let neg := decide (value < 0)
    let result := magnitudeBytes 8 value.natAbs
    match result.getLast? with
    | none => result
    | some last =>
      if last &&& 0x80 ≠ 0 then result ++ [if neg then 0x80 else 0]
      else if neg then result.dropLast ++ [last ||| 0x80]
      else result

/-- `push_int64(n)`, which `script << n` runs for an integer: `OP_1NEGATE` and `OP_1 .. OP_16`
for those values, `OP_0` for zero, and otherwise the push of `CScriptNum::serialize(n)`.
Source: `src/script/script.h` `CScript::push_int64`, `CScript::operator<<(int64_t)`
Kind: D -/
def pushInt64 (n : Int) : List UInt8 :=
  if n = -1 ∨ (1 ≤ n ∧ n ≤ 16) then [UInt8.ofNat (n + (op1.toNat - 1)).toNat]
  else if n = 0 then [op0]
  else pushBytes (CScriptNum.serialize n)

/-- The script-number constructor fails only by throwing one of its two errors, and with
`fRequireMinimal = false` only on an overlong item.
Source: `src/script/script.h` `CScriptNum::CScriptNum`
Kind: L -/
theorem CScriptNum.ofBytes_eq_error {vch : List UInt8} {nMaxNumSize : Nat} {e : Fault} :
    CScriptNum.ofBytes vch false nMaxNumSize = .error e ↔
      nMaxNumSize < vch.length ∧ e = .raise "script number overflow" := by
  unfold CScriptNum.ofBytes
  split_ifs with h
  · exact ⟨fun he => ⟨h, (Except.error.inj he).symm⟩, fun ⟨_, he⟩ => by rw [he]⟩
  · simp at *
  · simp only [false_iff, not_and]
    omega

end BwsCoin.Script
