import BwsCoin.Stake.StakeTx
import BwsCoin.Serialize.Serialize

/-!
# Transactions

The whole transaction of `src/primitives/transaction.h`: its inputs, with the outpoints they
spend, its outputs, its version, lock time and expiry. The stake functions of
`src/stake/staketx.cpp` read only the outputs, and take the view `CTransaction.outputs`; the
structure checks of a ticket purchase and its inputs check read the inputs too.

`SerializeTransaction` writes the basic format (version, inputs, outputs, lock time, and the
expiry from version 3 on) or, when the stream allows witnesses and an input has one, the
extended format: an empty input vector and a flags byte after the version, and the witness
stacks after the outputs. `UnserializeTransaction` reads the input vector first and takes an
empty one for the dummy of the extended format.
-/

namespace BwsCoin.Primitives

open Script Stake Serialize

/-- `COutPoint`: a transaction hash and an output index.
Source: `src/primitives/transaction.h` `COutPoint`
Kind: D -/
structure COutPoint where
  hash : Uint256
  n : UInt32
  deriving DecidableEq, Repr

/-- `CScriptWitness`: the witness stack of an input.
Source: `src/script/script.h` `CScriptWitness`
Kind: D -/
structure CScriptWitness where
  stack : List (List UInt8)
  deriving DecidableEq, Repr

/-- `CTxIn`: the outpoint an input spends, its script, sequence number and witness.
Source: `src/primitives/transaction.h` `CTxIn`
Kind: D -/
structure CTxIn where
  prevout : COutPoint
  scriptSig : CScript
  nSequence : UInt32
  scriptWitness : CScriptWitness
  deriving DecidableEq, Repr

/-- `CTransaction`.
Source: `src/primitives/transaction.h` `CTransaction`
Kind: D
Fidelity: exact on the five serialized members; the cached hash is left out -/
structure CTransaction where
  vin : List CTxIn
  vout : List CTxOut
  nVersion : Int32
  nLockTime : UInt32
  nExpiry : UInt32
  deriving DecidableEq, Repr

namespace CTransaction

/-- The transaction by its outputs, as the stake functions read it.
Source: none: the outputs of a `CTransaction`
Kind: D -/
def outputs (tx : CTransaction) : Stake.CTransaction := ⟨tx.vout⟩

/-- `HasWitness()`: some input has a nonempty witness stack.
Source: `src/primitives/transaction.h` `CTransaction::HasWitness`
Kind: D -/
def hasWitness (tx : CTransaction) : Bool := tx.vin.any fun i => !i.scriptWitness.stack.isEmpty

/-- Source: `src/primitives/transaction.h` `CTransaction::vout`. Kind: L -/
@[simp] theorem outputs_vout (tx : CTransaction) : tx.outputs.vout = tx.vout := rfl

end CTransaction

/-! ## Serialization -/

/-- `COutPoint::SerializationOp` writing: the hash, then the index.
Source: `src/primitives/transaction.h` `COutPoint::SerializationOp`
Kind: D -/
def COutPoint.serialize (o : COutPoint) : List UInt8 := serializeUint256 o.hash ++ serWritedata32 o.n

/-- `COutPoint::SerializationOp` reading. Source: `src/primitives/transaction.h`. Kind: D -/
def COutPoint.unserialize : Reader COutPoint := do
  let hash ← unserializeUint256
  let n ← serReaddata32
  pure ⟨hash, n⟩

/-- `CTxIn::SerializationOp` writing: the outpoint, the script and the sequence number; the
witness is written only by the transaction.
Source: `src/primitives/transaction.h` `CTxIn::SerializationOp`
Kind: D -/
def CTxIn.serialize (txIn : CTxIn) : List UInt8 :=
  txIn.prevout.serialize ++ serializeBytes txIn.scriptSig ++ serWritedata32 txIn.nSequence

/-- `CTxIn::SerializationOp` reading, into a default-constructed input, whose witness stays
empty.
Source: `src/primitives/transaction.h` `CTxIn::SerializationOp`, `CTxIn::CTxIn()`
Kind: D -/
def CTxIn.unserialize : Reader CTxIn := do
  let prevout ← COutPoint.unserialize
  let scriptSig ← unserializeBytes
  let nSequence ← serReaddata32
  pure ⟨prevout, scriptSig, nSequence, ⟨[]⟩⟩

/-- `CTxOut::SerializationOp` writing: the amount as an `int64_t`, then the script.
Source: `src/primitives/transaction.h` `CTxOut::SerializationOp`
Kind: D
Fidelity: the model's amount is an integer; a `CAmount` is an `int64_t`, which `Int64.ofInt`
keeps as it is -/
def serializeTxOut (out : CTxOut) : List UInt8 :=
  serializeInt64 (Int64.ofInt out.nValue) ++ serializeBytes out.scriptPubKey

/-- `CTxOut::SerializationOp` reading. Source: `src/primitives/transaction.h`. Kind: D -/
def unserializeTxOut : Reader CTxOut := do
  let nValue ← unserializeInt64
  let scriptPubKey ← unserializeBytes
  pure ⟨nValue.toInt, scriptPubKey⟩

/-- The exception of flags that no version of the format defines.
Source: `src/primitives/transaction.h` `UnserializeTransaction`
Kind: D -/
def unknownOptionalData : Fault := .raise "Unknown transaction optional data"

/-- `SerializeTransaction`, on a stream that allows witnesses (`SERIALIZE_TRANSACTION_NO_WITNESS`
clear in its version) when `fAllowWitness` holds.
Source: `src/primitives/transaction.h` `SerializeTransaction`
Kind: D -/
def serializeTransaction (fAllowWitness : Bool) (tx : CTransaction) : List UInt8 :=
  let flags : UInt8 := if fAllowWitness && tx.hasWitness then 1 else 0
  serializeInt32 tx.nVersion ++
    -- the extended format: an empty `vinDummy`, then the flags
    (if flags ≠ 0 then serializeVector CTxIn.serialize [] ++ serWritedata8 flags else []) ++
    serializeVector CTxIn.serialize tx.vin ++
    serializeVector serializeTxOut tx.vout ++
    (if flags &&& 1 ≠ 0 then
      tx.vin.flatMap fun txIn => serializeVector serializeBytes txIn.scriptWitness.stack
    else []) ++
    serWritedata32 tx.nLockTime ++
    (if 3 ≤ tx.nVersion then serWritedata32 tx.nExpiry else [])

/-- `UnserializeTransaction`: the version; the input vector, and when it is empty on a stream
that allows witnesses the flags, and for nonzero flags the inputs and the outputs; the witness
stacks when the flags ask for them; the lock time, and the expiry from version 3 on.
Source: `src/primitives/transaction.h` `UnserializeTransaction`
Kind: D -/
def unserializeTransaction (fAllowWitness : Bool) : Reader CTransaction := do
  let nVersion ← unserializeInt32
  let vin ← unserializeVector CTxIn.unserialize
  let (flags, vin, vout) ← if vin = [] ∧ fAllowWitness = true then do
      -- a dummy or an empty `vin`
      let flags ← serReaddata8
      if flags ≠ 0 then do
        let vin ← unserializeVector CTxIn.unserialize
        let vout ← unserializeVector unserializeTxOut
        pure (flags, vin, vout)
      else pure (flags, vin, [])
    else do
      let vout ← unserializeVector unserializeTxOut
      pure ((0 : UInt8), vin, vout)
  let (flags, vin) ← if flags &&& 1 ≠ 0 ∧ fAllowWitness = true then do
      let vin ← vin.mapM fun txIn => do
        let stack ← unserializeVector unserializeBytes
        pure { txIn with scriptWitness := ⟨stack⟩ }
      pure (flags ^^^ 1, vin)
    else pure (flags, vin)
  if flags ≠ 0 then throw unknownOptionalData
  let nLockTime ← serReaddata32
  let nExpiry ← if 3 ≤ nVersion then serReaddata32 else pure 0
  pure ⟨vin, vout, nVersion, nLockTime, nExpiry⟩

end BwsCoin.Primitives
