import BwsCoin.Stake.StakeTx

/-!
# Dust: fee rates and the dust threshold of an output

An output is dust when spending it would cost more in relay fees than it carries
(`src/policy/policy.cpp`): the threshold is the fee, at the node's `::dustRelayFee`, of the
output's serialized size plus the 148 bytes of a typical input spending it (41 bytes and a
quarter of the signature for a witness program). `::dustRelayFee` is a relay policy setting of
the node, `DUST_RELAY_TX_FEE` unless `-dustrelayfee` replaces it at start-up, so every function
here takes the fee rate as an argument.
-/

namespace BwsCoin.Policy

open Script Stake

/-- `CFeeRate`: a fee rate in satoshis per 1000 bytes.
Source: `src/policy/feerate.h` `CFeeRate`
Kind: D -/
structure CFeeRate where
  nSatoshisPerK : Int
  deriving DecidableEq, Repr

/-- `CFeeRate::GetFee(nBytes)`: the fee of `nBytes` bytes, truncated toward zero, and one
satoshi (of the rate's sign) where that truncates a nonzero rate to nothing.
Source: `src/policy/feerate.cpp` `CFeeRate::GetFee`
Kind: D
Fidelity: exact; its `assert(nBytes <= INT64_MAX)` holds at the one modelled call, which passes a
serialized output size plus an input size -/
def CFeeRate.getFee (r : CFeeRate) (nBytes : Nat) : Int :=
  let nSize : Int := nBytes
  let nFee := (r.nSatoshisPerK * nSize).tdiv 1000
  if nFee = 0 ∧ nSize ≠ 0 then
    if r.nSatoshisPerK > 0 then 1
    else if r.nSatoshisPerK < 0 then -1
    else nFee
  else nFee

/-- `DUST_RELAY_TX_FEE`. Source: `src/policy/policy.h`. Kind: D -/
def dustRelayTxFee : Int := 3000

/-- The start-up value of `::dustRelayFee`, which `-dustrelayfee` replaces by any nonzero amount.
Source: `src/policy/policy.cpp` `dustRelayFee`, `src/init.cpp` (`-dustrelayfee`)
Kind: D -/
def defaultDustRelayFee : CFeeRate := ⟨dustRelayTxFee⟩

/-- `MAX_SCRIPT_SIZE`. Source: `src/script/script.h`. Kind: D -/
def maxScriptSize : Nat := 10000

/-- `CScript::IsUnspendable()`: an OP_RETURN script, or one too large to execute.
Source: `src/script/script.h` `CScript::IsUnspendable`
Kind: D -/
def isUnspendable (s : CScript) : Bool :=
  decide (s.head? = some opReturn) || decide (maxScriptSize < s.length)

/-- `GetSizeOfCompactSize(nSize)`. Source: `src/serialize.h`. Kind: D -/
def getSizeOfCompactSize (nSize : Nat) : Nat :=
  if nSize < 253 then 1
  else if nSize ≤ 0xffff then 3
  else if nSize ≤ 0xffffffff then 5
  else 9

/-- `GetSerializeSize(txout, SER_DISK, 0)`: the 8-byte value, then the script with its compact
size.
Source: `src/primitives/transaction.h` `CTxOut::SerializationOp`
Kind: D -/
def getSerializeSize (txout : CTxOut) : Nat :=
  8 + getSizeOfCompactSize txout.scriptPubKey.length + txout.scriptPubKey.length

/-- `WITNESS_SCALE_FACTOR`. Source: `src/consensus/consensus.h`. Kind: D -/
def witnessScaleFactor : Nat := 4

/-- `GetDustThreshold(txout, dustRelayFeeIn)`: zero for an unspendable output, otherwise the fee
of spending it.
Source: `src/policy/policy.cpp` `GetDustThreshold`
Kind: D
Fidelity: exact -/
def getDustThreshold (txout : CTxOut) (dustRelayFeeIn : CFeeRate) : Int :=
  if isUnspendable txout.scriptPubKey then 0
  else
    let nSize := getSerializeSize txout
    -- the parts of the input that spends it, with the segwit discount on the script
    let nSize :=
      if (isWitnessProgram txout.scriptPubKey).isSome then
        nSize + (32 + 4 + 1 + 107 / witnessScaleFactor + 4)
      else nSize + (32 + 4 + 1 + 107 + 4)
    dustRelayFeeIn.getFee nSize

/-- `IsDust(txout, dustRelayFeeIn)`.
Source: `src/policy/policy.cpp` `IsDust`
Kind: D -/
def isDust (txout : CTxOut) (dustRelayFeeIn : CFeeRate) : Bool :=
  decide (txout.nValue < getDustThreshold txout dustRelayFeeIn)

/-- The threshold reads the output's script, never its value.
Source: `src/policy/policy.cpp` `GetDustThreshold`
Kind: L -/
theorem getDustThreshold_nValue (v w : Int) (s : CScript) (r : CFeeRate) :
    getDustThreshold ⟨v, s⟩ r = getDustThreshold ⟨w, s⟩ r := rfl

/-- For a rate of at least zero the fee is the truncated product, raised to one satoshi where the
product is below 1000 and the rate positive.
Source: `src/policy/feerate.cpp` `CFeeRate::GetFee`
Kind: L -/
theorem getFee_of_nonneg {r : CFeeRate} (hr : 0 ≤ r.nSatoshisPerK) (nBytes : Nat) :
    r.getFee nBytes =
      if 0 < r.nSatoshisPerK ∧ 0 < nBytes ∧ r.nSatoshisPerK * nBytes < 1000 then 1
      else r.nSatoshisPerK * nBytes / 1000 := by
  have hprod : 0 ≤ r.nSatoshisPerK * (nBytes : Int) := Int.mul_nonneg hr (Int.natCast_nonneg _)
  have htdiv : (r.nSatoshisPerK * (nBytes : Int)).tdiv 1000 = r.nSatoshisPerK * nBytes / 1000 :=
    Int.tdiv_eq_ediv_of_nonneg hprod
  have hzero : r.nSatoshisPerK * (nBytes : Int) / 1000 = 0 ↔
      r.nSatoshisPerK * (nBytes : Int) < 1000 := by
    constructor
    · intro h; omega
    · intro h; exact Int.ediv_eq_zero_of_lt hprod h
  simp only [CFeeRate.getFee, htdiv, hzero]
  by_cases hk : 0 < r.nSatoshisPerK
  · by_cases hn : nBytes = 0
    · subst hn; simp
    · have hn' : 0 < nBytes := Nat.pos_of_ne_zero hn
      by_cases hlt : r.nSatoshisPerK * (nBytes : Int) < 1000
      · simp [hk, hn, hn', hlt]
      · simp [hlt]
  · have hk0 : r.nSatoshisPerK = 0 := by omega
    simp [hk0]

/-- At a rate of at least zero no fee is negative.
Source: `src/policy/feerate.cpp` `CFeeRate::GetFee`
Kind: L -/
theorem getFee_nonneg {r : CFeeRate} (hr : 0 ≤ r.nSatoshisPerK) (nBytes : Nat) :
    0 ≤ r.getFee nBytes := by
  rw [getFee_of_nonneg hr]
  split
  · decide
  · exact Int.ediv_nonneg (Int.mul_nonneg hr (Int.natCast_nonneg _)) (by decide)

/-- At a rate of at least zero no dust threshold is negative.
Source: `src/policy/policy.cpp` `GetDustThreshold`
Kind: L -/
theorem getDustThreshold_nonneg (txout : CTxOut) {r : CFeeRate} (hr : 0 ≤ r.nSatoshisPerK) :
    0 ≤ getDustThreshold txout r := by
  unfold getDustThreshold
  split
  · exact Int.le_refl 0
  · exact getFee_nonneg hr _

end BwsCoin.Policy
