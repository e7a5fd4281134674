import BwsCoin.Primitives.Transaction

/-!
# Transactions written and read back

`UnserializeTransaction` reads back what `SerializeTransaction` writes, field for field and
consuming exactly those bytes, for every transaction with an input whose expiry is zero below
version 3, in either stream mode (the mode without witnesses only for a transaction without
them), and whose vectors and byte strings have at most `MAX_SIZE` elements each: the reader
refuses a longer one with `ReadCompactSize(): size too large`.

* `unserializeTransaction_serializeTransaction` — the round trip, in the basic and in the
  extended format;
* `unserializeTransaction_of_gt` — a transaction whose first input script is longer than
  `MAX_SIZE` is written but does not read back. Every path by which the node receives a
  transaction bounds it by `MAX_SIZE` first.
-/

namespace BwsCoin.Primitives

open ByteReader Serialize Stake Script

/-- An input as `CTxIn`'s own serialization keeps it: without its witness.
Source: `src/primitives/transaction.h` `CTxIn::SerializationOp`
Kind: D -/
def CTxIn.withoutWitness (txIn : CTxIn) : CTxIn := { txIn with scriptWitness := ⟨[]⟩ }

/-- The sizes a transaction's reader accepts: every vector and byte string in it has at most
`MAX_SIZE` elements. The last field says that every amount is an `int64_t`, as a `CAmount` is
(the model's amounts are integers).
Source: `src/serialize.h` `ReadCompactSize`
Kind: D -/
structure CTransaction.Serializable (tx : CTransaction) : Prop where
  vin_length : tx.vin.length ≤ maxSize
  vout_length : tx.vout.length ≤ maxSize
  scriptSig_length : ∀ txIn ∈ tx.vin, txIn.scriptSig.length ≤ maxSize
  witness_length : ∀ txIn ∈ tx.vin, txIn.scriptWitness.stack.length ≤ maxSize
  witness_item_length : ∀ txIn ∈ tx.vin, ∀ item ∈ txIn.scriptWitness.stack, item.length ≤ maxSize
  scriptPubKey_length : ∀ out ∈ tx.vout, out.scriptPubKey.length ≤ maxSize
  nValue_int64 : ∀ out ∈ tx.vout, -2 ^ 63 ≤ out.nValue ∧ out.nValue < 2 ^ 63

/-! ## Outpoints, inputs and outputs -/

/-- Source: `src/primitives/transaction.h` `COutPoint::SerializationOp`. Kind: L -/
theorem reads_COutPoint_unserialize (o : COutPoint) :
    Reads COutPoint.unserialize o.serialize o :=
  (reads_unserializeUint256 o.hash).bind ((reads_serReaddata32 o.n).bind_pure (COutPoint.mk o.hash))

/-- An input reads back without its witness.
Source: `src/primitives/transaction.h` `CTxIn::SerializationOp`
Kind: L -/
theorem reads_CTxIn_unserialize {txIn : CTxIn} (h : txIn.scriptSig.length ≤ maxSize) :
    Reads CTxIn.unserialize txIn.serialize txIn.withoutWitness :=
  ((reads_COutPoint_unserialize txIn.prevout).bind ((reads_unserializeBytes h).bind
    ((reads_serReaddata32 txIn.nSequence).bind_pure
      fun nSequence => CTxIn.mk txIn.prevout txIn.scriptSig nSequence ⟨[]⟩))).of_eq
    (by simp only [CTxIn.serialize, List.append_assoc]) rfl

/-- An output whose amount is an `int64_t` reads back.
Source: `src/primitives/transaction.h` `CTxOut::SerializationOp`
Kind: L -/
theorem reads_unserializeTxOut {out : CTxOut} (h : out.scriptPubKey.length ≤ maxSize)
    (hv : -2 ^ 63 ≤ out.nValue ∧ out.nValue < 2 ^ 63) :
    Reads unserializeTxOut (serializeTxOut out) out := by
  have hval : (Int64.ofInt out.nValue).toInt = out.nValue := by
    rw [Int64.toInt_ofInt]
    exact Int.bmod_eq_of_le (by simp [Int64.size]; omega) (by simp [Int64.size]; omega)
  refine ((reads_unserializeInt64 (Int64.ofInt out.nValue)).bind
    ((reads_unserializeBytes h).bind_pure (CTxOut.mk _))).of_eq rfl ?_
  rw [hval]

/-! ## The parts of a transaction -/

section parts

variable {tx : CTransaction}

/-- An input with no witness items loses nothing to the basic format.
Source: `src/primitives/transaction.h` `UnserializeTransaction`
Kind: L -/
theorem withoutWitness_eq_self {txIn : CTxIn} (h : txIn.scriptWitness.stack = []) :
    txIn.withoutWitness = txIn := by
  obtain ⟨prevout, scriptSig, nSequence, ⟨stack⟩⟩ := txIn
  cases h
  rfl

/-- Without a witness, the inputs are what their own serialization keeps.
Source: `src/primitives/transaction.h` `CTransaction::HasWitness`
Kind: L -/
theorem map_withoutWitness_of_hasWitness (h : tx.hasWitness = false) :
    tx.vin.map CTxIn.withoutWitness = tx.vin := by
  rw [List.map_congr_left (g := id), List.map_id]
  intro txIn hin
  have hempty : txIn.scriptWitness.stack.isEmpty = true := by
    simpa [CTransaction.hasWitness] using List.any_eq_false.1 h txIn hin
  exact withoutWitness_eq_self (List.isEmpty_iff.1 hempty)

/-- The inputs read back, without their witnesses.
Source: `src/primitives/transaction.h` `SerializeTransaction`, `UnserializeTransaction` (`tx.vin`)
Kind: L -/
theorem reads_vin (hsize : tx.Serializable) :
    Reads (unserializeVector CTxIn.unserialize) (serializeVector CTxIn.serialize tx.vin)
      (tx.vin.map CTxIn.withoutWitness) :=
  reads_unserializeVector hsize.vin_length fun txIn hin =>
    reads_CTxIn_unserialize (hsize.scriptSig_length txIn hin)

/-- The outputs read back.
Source: `src/primitives/transaction.h` `SerializeTransaction`, `UnserializeTransaction` (`tx.vout`)
Kind: L -/
theorem reads_vout (hsize : tx.Serializable) :
    Reads (unserializeVector unserializeTxOut) (serializeVector serializeTxOut tx.vout) tx.vout :=
  (reads_unserializeVector (g := id) hsize.vout_length fun out hout =>
    reads_unserializeTxOut (hsize.scriptPubKey_length out hout)
      (hsize.nValue_int64 out hout)).of_eq rfl (List.map_id _)

/-- The witness stacks, read into the inputs read without them, give back the inputs.
Source: `src/primitives/transaction.h` `UnserializeTransaction` (the witness loop)
Kind: L -/
theorem reads_witnesses (hsize : tx.Serializable) :
    Reads ((tx.vin.map CTxIn.withoutWitness).mapM fun txIn => do
        let stack ← unserializeVector unserializeBytes
        pure { txIn with scriptWitness := ⟨stack⟩ })
      (tx.vin.flatMap fun txIn => serializeVector serializeBytes txIn.scriptWitness.stack)
      tx.vin := by
  refine (reads_mapM (g := id) fun txIn hin => ?_).of_eq rfl (List.map_id _)
  exact (reads_unserializeVector_bytes (hsize.witness_length txIn hin)
    (hsize.witness_item_length txIn hin)).bind_pure
    fun stack => { txIn.withoutWitness with scriptWitness := ⟨stack⟩ }

/-- The lock time, and the expiry from version 3 on, read back; below version 3 the expiry
read is zero.
Source: `src/primitives/transaction.h` `UnserializeTransaction`, `SerializeTransaction`
Kind: L -/
theorem reads_lockTime_expiry (vin : List CTxIn) (vout : List CTxOut) {nVersion : Int32}
    (nLockTime : UInt32) {nExpiry : UInt32} (hexpiry : 3 ≤ nVersion ∨ nExpiry = 0) :
    Reads (do
        let nLockTime ← serReaddata32
        let nExpiry ← if 3 ≤ nVersion then serReaddata32 else pure 0
        pure (⟨vin, vout, nVersion, nLockTime, nExpiry⟩ : CTransaction))
      (serWritedata32 nLockTime ++ (if 3 ≤ nVersion then serWritedata32 nExpiry else []))
      ⟨vin, vout, nVersion, nLockTime, nExpiry⟩ := by
  refine (reads_serReaddata32 nLockTime).bind ?_
  by_cases hv : 3 ≤ nVersion
  · rw [if_pos hv, if_pos hv]
    exact (reads_serReaddata32 nExpiry).bind_pure _
  · rw [if_neg hv, if_neg hv, pure_bind, hexpiry.resolve_left hv]
    exact Reads.pure _

/-! ## The round trip -/

/-- The basic format: no input has a witness.
Source: `src/primitives/transaction.h` `SerializeTransaction`, `UnserializeTransaction`
Kind: L -/
theorem reads_unserializeTransaction_basic {fAllowWitness : Bool} {tx : CTransaction}
    (hvin : tx.vin ≠ []) (hexpiry : 3 ≤ tx.nVersion ∨ tx.nExpiry = 0)
    (hnone : tx.hasWitness = false) (hsize : tx.Serializable) :
    Reads (unserializeTransaction fAllowWitness) (serializeTransaction fAllowWitness tx) tx := by
  have hbytes : serializeTransaction fAllowWitness tx =
      serializeInt32 tx.nVersion ++ (serializeVector CTxIn.serialize tx.vin ++
        (serializeVector serializeTxOut tx.vout ++ (serWritedata32 tx.nLockTime ++
          (if 3 ≤ tx.nVersion then serWritedata32 tx.nExpiry else [])))) := by
    simp [serializeTransaction, hnone, List.append_assoc]
  have hvin' : tx.vin.map CTxIn.withoutWitness ≠ [] := by simpa using hvin
  rw [hbytes]
  unfold unserializeTransaction
  refine (reads_unserializeInt32 tx.nVersion).bind ?_
  refine (reads_vin hsize).bind ?_
  -- a nonempty `vin`: the outputs follow, and the flags stay zero
  rw [if_neg (fun h => hvin' h.1)]
  refine (reads_vout hsize).bind ?_
  rw [pure_bind]
  dsimp only
  rw [if_neg (fun h => absurd h.1 (by decide)), pure_bind]
  dsimp only
  rw [if_neg (by decide), map_withoutWitness_of_hasWitness hnone]
  exact reads_lockTime_expiry tx.vin tx.vout tx.nLockTime hexpiry

/-- The extended format: an input has a witness, on a stream that allows them.
Source: `src/primitives/transaction.h` `SerializeTransaction`, `UnserializeTransaction`
Kind: L -/
theorem reads_unserializeTransaction_extended {tx : CTransaction}
    (hexpiry : 3 ≤ tx.nVersion ∨ tx.nExpiry = 0) (hwit : tx.hasWitness = true)
    (hsize : tx.Serializable) :
    Reads (unserializeTransaction true) (serializeTransaction true tx) tx := by
  have hbytes : serializeTransaction true tx =
      serializeInt32 tx.nVersion ++ (serializeVector CTxIn.serialize [] ++ (serWritedata8 1 ++
        (serializeVector CTxIn.serialize tx.vin ++ (serializeVector serializeTxOut tx.vout ++
          ((tx.vin.flatMap fun txIn => serializeVector serializeBytes txIn.scriptWitness.stack) ++
            (serWritedata32 tx.nLockTime ++
              (if 3 ≤ tx.nVersion then serWritedata32 tx.nExpiry else []))))))) := by
    simp [serializeTransaction, hwit, List.append_assoc]
  rw [hbytes]
  unfold unserializeTransaction
  refine (reads_unserializeInt32 tx.nVersion).bind ?_
  -- the empty `vinDummy`, then the flags `1`
  refine (reads_unserializeVector (g := id) (v := []) (Nat.zero_le _)
    (fun _ h => absurd h List.not_mem_nil)).bind ?_
  rw [if_pos ⟨rfl, rfl⟩]
  refine (reads_serReaddata8 1).bind ?_
  rw [if_pos (by decide)]
  refine (reads_vin hsize).bind ((reads_vout hsize).bind ?_)
  rw [pure_bind]
  dsimp only
  -- the witness stacks, and the flags cleared
  rw [if_pos ⟨by decide, rfl⟩]
  refine (reads_witnesses hsize).bind ?_
  rw [pure_bind]
  dsimp only
  rw [if_neg (by decide)]
  exact reads_lockTime_expiry tx.vin tx.vout tx.nLockTime hexpiry

end parts

/-- **`UnserializeTransaction` reads back what `SerializeTransaction` writes**, every field with
the expiry included, and consumes exactly those bytes: for every transaction with an input, an
expiry of zero below version 3, and vectors and byte strings of at most `MAX_SIZE` elements, in
a stream mode that keeps its witnesses.
Source: `src/primitives/transaction.h` `SerializeTransaction`, `UnserializeTransaction`
Kind: T -/
theorem unserializeTransaction_serializeTransaction {fAllowWitness : Bool} {tx : CTransaction}
    (hvin : tx.vin ≠ []) (hexpiry : 3 ≤ tx.nVersion ∨ tx.nExpiry = 0)
    (hwitness : fAllowWitness = true ∨ tx.hasWitness = false) (hsize : tx.Serializable)
    (rest : List UInt8) :
    (unserializeTransaction fAllowWitness).run (serializeTransaction fAllowWitness tx ++ rest) =
      .ok (tx, rest) := by
  cases hw : tx.hasWitness
  · exact reads_unserializeTransaction_basic hvin hexpiry hw hsize rest
  · -- a witness is kept only by a stream that allows them
    have hf : fAllowWitness = true := hwitness.resolve_right (by rw [hw]; decide)
    subst hf
    exact reads_unserializeTransaction_extended hexpiry hw hsize rest

/-- A version-3 transaction with an expiry, one input with a witness of one item, and one
output.
Source: none: test data
Kind: D -/
def witnessExpiryTx : CTransaction where
  vin := [⟨⟨Uint256.zero, 0⟩, [0x51], 0xffffffff, ⟨[[0x01, 0x02]]⟩⟩]
  vout := [⟨50, [0x51]⟩]
  nVersion := 3
  nLockTime := 0
  nExpiry := 7

/-- The transaction with a witness and an expiry reads back whole.
Source: `src/primitives/transaction.h` `SerializeTransaction`, `UnserializeTransaction`
Kind: W -/
theorem unserializeTransaction_witnessExpiryTx :
    (unserializeTransaction true).run (serializeTransaction true witnessExpiryTx ++ []) =
      .ok (witnessExpiryTx, []) :=
  unserializeTransaction_serializeTransaction (List.cons_ne_nil _ _) (.inl (by decide)) (.inl rfl)
    ⟨by decide, by decide, by decide, by decide, by decide, by decide, by decide⟩ []

/-! ## A script longer than `MAX_SIZE` -/

/-- Source: `src/primitives/transaction.h` `CTxIn::SerializationOp`. Kind: L -/
theorem CTxIn.unserialize_of_gt {txIn : CTxIn} (h : maxSize < txIn.scriptSig.length)
    (h' : txIn.scriptSig.length < 2 ^ 64) (rest : List UInt8) :
    CTxIn.unserialize.run (txIn.serialize ++ rest) = .error sizeTooLarge := by
  rw [CTxIn.serialize, List.append_assoc, List.append_assoc]
  unfold CTxIn.unserialize
  refine (reads_COutPoint_unserialize txIn.prevout).run_bind_error ?_
  exact run_bind_of_error (unserializeBytes_of_gt h h' _)

/-- A transaction without witnesses whose first input has a script longer than `MAX_SIZE` does
not read back: the reader refuses the script's size.
Source: `src/primitives/transaction.h` `UnserializeTransaction`; `src/serialize.h`
`ReadCompactSize`
Kind: L -/
theorem unserializeTransaction_of_gt {tx : CTransaction} {txIn : CTxIn} {ins : List CTxIn}
    (hvin : tx.vin = txIn :: ins) (hnone : tx.hasWitness = false)
    (hlen : tx.vin.length ≤ maxSize) (h : maxSize < txIn.scriptSig.length)
    (h' : txIn.scriptSig.length < 2 ^ 64) (fAllowWitness : Bool) :
    (unserializeTransaction fAllowWitness).run (serializeTransaction fAllowWitness tx) =
      .error sizeTooLarge := by
  have hbytes : serializeTransaction fAllowWitness tx =
      serializeInt32 tx.nVersion ++ (serializeVector CTxIn.serialize tx.vin ++
        (serializeVector serializeTxOut tx.vout ++ (serWritedata32 tx.nLockTime ++
          (if 3 ≤ tx.nVersion then serWritedata32 tx.nExpiry else [])))) := by
    simp [serializeTransaction, hnone, List.append_assoc]
  rw [hbytes]
  unfold unserializeTransaction
  refine (reads_unserializeInt32 tx.nVersion).run_bind_error ?_
  refine run_bind_of_error ?_
  rw [hvin] at hlen ⊢
  exact unserializeVector_of_head hlen (CTxIn.unserialize_of_gt h h') _

end BwsCoin.Primitives
