import BwsCoin.Stake.RemunerationSpec
import BwsCoin.Stake.StakeData
import BwsCoin.Coins.Coins
import BwsCoin.Consensus.Params

/-!
# The payment checks of votes and revocations

`checkVoteOrRevokeTicketInputs` (`src/consensus/tx_verify.cpp`) first checks the transaction's
structure, finds the ticket it spends, the maturity of its stake and the ticket's contributions,
all from chain data. It then computes the remunerations the contributors are owed with
`CalculateNetRemunerations` and no fee, and checks each payment output against its contribution:
a P2PKH or P2SH script, to the contributor's address, and a value between the remuneration less
the contributor's fee limit and the remuneration. This module models that second part, from the
remunerations on (lines 416 to 463), which is where the function reads the node's `::dustRelayFee`
and depends on `std::sort`.

A verdict is `Except String Unit`: the reject reason `state.DoS` records, or success; a C++
exception is the outer `Fault`.
-/

namespace BwsCoin.Consensus

open Script Stake Policy

/-- `isLegalScriptTypeForStake(script)`: the script is P2PKH or P2SH.
Source: `src/consensus/tx_verify.cpp` `isLegalScriptTypeForStake`
Kind: D
Fidelity: exact -/
def isLegalScriptTypeForStake (script : CScript) : Except Fault Bool :=
  solver script >>= fun r =>
    .ok (r.ok && (r.typeRet == some .txPubkeyhash || r.typeRet == some .txScripthash))

/-- The `uint160` of a destination: `boost::get<CKeyID>(dest)` when `dest.which() == 1`, and
`boost::get<CScriptID>(dest)` otherwise.
Source: `src/consensus/tx_verify.cpp` `checkVoteOrRevokeTicketInputs` (`addr`)
Kind: D
Fidelity: exact for the two alternatives `isValidDestination` leaves -/
def destinationAddr : CTxDestination → List UInt8
  | .keyID id => id
  | .scriptID id => id
  | .noDestination => []

/-- The checks of one payment output against its contribution and gross remuneration; `what` is
`"vote"` or `"revocation"`.
Source: `src/consensus/tx_verify.cpp` `checkVoteOrRevokeTicketInputs` (the loop body)
Kind: D
Fidelity: exact -/
def checkPayment (hash160 : List UInt8 → List UInt8) (vote : Bool) (what : String)
    (out : CTxOut) (contrib : TicketContribData) (grossRemuneration : Int) :
    Except Fault (Except String Unit) :=
  isLegalScriptTypeForStake out.scriptPubKey >>= fun legal =>
    -- the payment uses P2PKH or P2SH
    if ¬ legal then .ok (.error (what ++ "-invalid-payment-type"))
    else extractDestination hash160 out.scriptPubKey >>= fun dest =>
      match dest with
      | none => .ok (.error (what ++ "-invalid-payment-address"))
      | some dest =>
        if ¬ isValidDestination dest then .ok (.error (what ++ "-invalid-payment-address"))
        -- the payment goes to the address in the contribution
        else if dest.which ≠ contrib.whichAddr then .ok (.error (what ++ "-incorrect-address-type"))
        else if destinationAddr dest ≠ contrib.rewardAddr then
          .ok (.error (what ++ "-incorrect-payment-address"))
        -- the amount is the remuneration, less at most the fee limit
        else
          let feeLimit := feeLimitOf vote contrib
          if out.nValue < grossRemuneration - feeLimit then
            .ok (.error (what ++ "-remuneration-too-low"))
          else if out.nValue > grossRemuneration then
            .ok (.error (what ++ "-remuneration-too-high"))
          else .ok (.ok ())

/-- The loop over the payment outputs, each with its contribution and gross remuneration; the
first failure is the verdict.
Source: `src/consensus/tx_verify.cpp` `checkVoteOrRevokeTicketInputs` (the payment loop)
Kind: D -/
def checkPayments (hash160 : List UInt8 → List UInt8) (vote : Bool) (what : String) :
    List (CTxOut × TicketContribData × Int) → Except Fault (Except String Unit)
  | [] => .ok (.ok ())
  | (out, contrib, grossRemuneration) :: rest =>
    checkPayment hash160 vote what out contrib grossRemuneration >>= fun verdict =>
      match verdict with
      | .error reason => .ok (.error reason)
      | .ok () => checkPayments hash160 vote what rest

/-- `what`. Source: `src/consensus/tx_verify.cpp` `checkVoteOrRevokeTicketInputs`. Kind: D -/
def voteWhat (vote : Bool) : String := if vote then "vote" else "revocation"

/-- The end of `checkVoteOrRevokeTicketInputs`, from the remunerations on: `payments` are the
outputs from `paymentOutputIndex` on, `stakedAmount` the ticket's stake and `subsidy` the voter
subsidy (zero for a revocation). The earlier checks guarantee as many payments as contributions.
Source: `src/consensus/tx_verify.cpp` `checkVoteOrRevokeTicketInputs` (lines 416 to 463)
Kind: D
Fidelity: exact from the remunerations on; the checks before them read only chain data, and are
taken to have passed -/
def checkPaymentOutputs (hash160 : List UInt8 → List UInt8) (sort : StdSort)
    (dustRelayFee : CFeeRate) (vote : Bool) (contributions : List TicketContribData)
    (stakedAmount subsidy : Int) (payments : List CTxOut) : Except Fault (Except String Unit) :=
  -- the expected remunerations without the fee
  calculateNetRemunerations sort dustRelayFee contributions stakedAmount subsidy 0
      .firstContributor >>= fun grossRemunerations =>
    if grossRemunerations.length ≠ contributions.length then
      .ok (.error (voteWhat vote ++ "-invalid-ticket-contributions"))
    else checkPayments hash160 vote (voteWhat vote)
      (payments.zip (contributions.zip grossRemunerations))

/-! ## The inputs of a ticket purchase -/

section buyTicket

open Coins Primitives

/-- `isLegalInputForBuyTicket(coin, txoutIndex)`: a coinbase output, or an output of a regular
transaction, a vote or a revocation, or a ticket purchase's output other than its stake, whose
script is P2PKH or P2SH.
Source: `src/consensus/tx_verify.cpp` `isLegalInputForBuyTicket`
Kind: D
Fidelity: exact -/
def isLegalInputForBuyTicket (coin : Coin) (txoutIndex : Nat) : Except Fault Bool :=
  if coin.isCoinBase then .ok true
  else
    -- check class of containing transaction
    let containedInLegalTxClass :=
      coin.txClass = .txRegular ∨ (coin.txClass = .txBuyTicket ∧ txoutIndex ≠ ticketStakeOutputIndex)
        ∨ coin.txClass = .txVote ∨ coin.txClass = .txRevokeTicket
    if ¬ containedInLegalTxClass then .ok false
    -- check if stake coin's scriptPubKey is P2PKH or P2SH
    else isLegalScriptTypeForStake coin.out.scriptPubKey

/-- One turn of the input loop of `checkBuyTicketInputs`, for input `i`, with the fee limit
totals so far: the coin it spends exists and is a legal input, and the contribution of output
`2 + 2i` plus the change of output `3 + 2i` is the coin's value. The result of
`ParseTicketContrib` is ignored, and the contribution is read from a `TicketContribData` the
parse started from `indeterminate`, the members of a default-constructed one.
Source: `src/consensus/tx_verify.cpp` `checkBuyTicketInputs` (the loop body)
Kind: D
Fidelity: exact; the default constructor of `TicketContribData` leaves its numbers
uninitialised, which the model takes as the argument `indeterminate`; output `3 + 2i` exists
after the structure check, and the model reads a null output in its place otherwise -/
def checkBuyTicketInput (indeterminate : TicketContribData) (tx : Primitives.CTransaction)
    (inputs : COutPoint → Coin) (i : Nat) (txIn : CTxIn) (totals : Int × Int) :
    Except Fault (Except String (Int × Int)) := do
  let coin := inputs txIn.prevout
  -- check that the coin exists and is unspent
  if coin.isSpent then return .error "bad-txin-missingorspent"
  -- legal inputs are: outputs of regular or coinbase transactions, BuyTicket change outputs,
  -- Vote reward and RevokeTicket refund outputs
  if ¬ (← isLegalInputForBuyTicket coin txIn.prevout.n.toNat) then
    return .error "bad-txin-illegal-input"
  -- check that the contribution plus change equals input amount
  let (_, contrib) ← parseTicketContrib tx.outputs (ticketContribOutputIndex + 2 * i) indeterminate
  let change := (tx.vout.getD (ticketChangeOutputIndex + 2 * i) nullTxOut).nValue
  let funding := coin.out.nValue
  if contrib.contributedAmount + change ≠ funding then return .error "bad-txin-amount-mismatch"
  return .ok (totals.1 + contrib.voteFeeLimit, totals.2 + contrib.revocationFeeLimit)

/-- The input loop of `checkBuyTicketInputs` from input `i` on, accumulating the vote and
revocation fee limit totals; the first failure is the verdict.
Source: `src/consensus/tx_verify.cpp` `checkBuyTicketInputs` (the input loop)
Kind: D -/
def checkBuyTicketInputLoop (indeterminate : TicketContribData) (tx : Primitives.CTransaction)
    (inputs : COutPoint → Coin) : Nat → List CTxIn → Int × Int →
      Except Fault (Except String (Int × Int))
  | _, [], totals => .ok (.ok totals)
  | i, txIn :: rest, totals =>
    checkBuyTicketInput indeterminate tx inputs i txIn totals >>= fun v =>
      match v with
      | .error reason => .ok (.error reason)
      | .ok totals => checkBuyTicketInputLoop indeterminate tx inputs (i + 1) rest totals

/-- `checkBuyTicketInputs(tx, state, inputs, nSpendHeight, chainparams)`: the structure of the
purchase, each input, and the minimum totals of the fee limits. `inputs` is
`CCoinsViewCache::AccessCoin`; the spend height is read by no check.
Source: `src/consensus/tx_verify.cpp` `checkBuyTicketInputs`
Kind: D
Fidelity: exact; the totals are unbounded integers, as the sums of at most
`BUY_TICKET_MAX_INPUTS` fee limits in `[0, MAX_MONEY]` are -/
def checkBuyTicketInputs (params : Params) (indeterminate : TicketContribData)
    (tx : Primitives.CTransaction) (inputs : COutPoint → Coin) : Except Fault (Except String Unit) :=
  -- check transaction structure
  validateBuyTicketStructure tx >>= fun v =>
    match v with
    | .error _ => .ok (.error "bad-buyticket-structure")
    | .ok () =>
      -- validate individual inputs
      checkBuyTicketInputLoop indeterminate tx inputs 0 tx.vin (0, 0) >>= fun v =>
        match v with
        | .error reason => .ok (.error reason)
        | .ok (totalVoteFeeLimit, totalRevocationFeeLimit) =>
          -- ensure that the minimum fee limits are met
          if totalVoteFeeLimit < params.nMinimumTotalVoteFeeLimit.toInt then
            .ok (.error "total-vote-fee-limit-too-low")
          else if totalRevocationFeeLimit < params.nMinimumTotalRevocationFeeLimit.toInt then
            .ok (.error "total-revocation-fee-limit-too-low")
          else .ok (.ok ())

end buyTicket

end BwsCoin.Consensus
