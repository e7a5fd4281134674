import Mathlib
import BwsCoin.Consensus.TxVerifySpec
import BwsCoin.Stake.StakeDataSpec

/-!
# The inputs check of a ticket purchase, and what it leaves unchecked

`checkBuyTicketInputs` (`src/consensus/tx_verify.cpp`) checks the structure of a purchase, then
for each input that its coin exists, is a legal input, and equals the contribution plus the
change, and last the totals of the contributions' fee limits. It reads each contribution with
`ParseTicketContrib` and ignores the result, and it checks no contribution's amount against
`MoneyRange`.

* `checkBuyTicketInputs_ticketPurchase` — on a purchase laid out as the wallet writes it, the
  verdict is the per-input checks and then the comparison of the fee limit totals that
  `ParseTicketContribs` returns, whatever the value the parser starts from;
* `checkPaymentOutputs_of_not_moneyRange` — a ticket with a contribution outside `MoneyRange`
  fails the payment checks of every vote and every revocation;
* `checkBuyTicketInputs_accepts_negative_contribution` — and such a ticket is accepted: a
  contribution of `-2` with a change of its funding plus 2, balanced by the other contributor,
  passes every check of the purchase.
-/

namespace BwsCoin.Consensus

open Script Stake Policy Coins Primitives

/-! ## One input and the input loop -/

/-- One turn of the input loop, on a coin that exists, is legal and equals the contribution
read plus the change: the fee limits are added, whatever `ParseTicketContrib` answered.
Source: `src/consensus/tx_verify.cpp` `checkBuyTicketInputs` (the loop body)
Kind: L -/
theorem checkBuyTicketInput_of_parse {indeterminate : TicketContribData}
    {tx : Primitives.CTransaction} {inputs : COutPoint → Coin} {i : Nat} {txIn : CTxIn} {ok : Bool} {d : TicketContribData}
    {change : CTxOut} (hspent : (inputs txIn.prevout).isSpent = false)
    (hlegal : isLegalInputForBuyTicket (inputs txIn.prevout) txIn.prevout.n.toNat = .ok true)
    (hparse : parseTicketContrib tx.outputs (ticketContribOutputIndex + 2 * i) indeterminate =
      .ok (ok, d))
    (hchange : tx.vout[ticketChangeOutputIndex + 2 * i]? = some change)
    (hamount : d.contributedAmount + change.nValue = (inputs txIn.prevout).out.nValue)
    (totals : Int × Int) :
    checkBuyTicketInput indeterminate tx inputs i txIn totals =
      .ok (.ok (totals.1 + d.voteFeeLimit, totals.2 + d.revocationFeeLimit)) := by
  have hget : tx.vout.getD (ticketChangeOutputIndex + 2 * i) nullTxOut = change := by
    rw [List.getD_eq_getElem?_getD, hchange, Option.getD_some]
  unfold checkBuyTicketInput
  simp only [hspent, Bool.false_eq_true, if_false, hlegal, except_ok_bind, not_true_eq_false]
  -- the flag of the parse is not read
  rw [hparse, except_ok_bind]
  simp only [hget, hamount, ne_eq, not_true_eq_false, if_false]
  rfl

/-- The input loop over inputs each of which passes adds up the fee limits of their
contributions.
Source: `src/consensus/tx_verify.cpp` `checkBuyTicketInputs` (the input loop)
Kind: L -/
theorem checkBuyTicketInputLoop_of_forall {indeterminate : TicketContribData}
    {tx : Primitives.CTransaction} {inputs : COutPoint → Coin} :
    ∀ (ins : List CTxIn) (cs : List TicketContribData) (i : Nat) (tv tr : Int),
      ins.length = cs.length →
      (∀ (k : Nat) (txIn : CTxIn) (c : TicketContribData), ins[k]? = some txIn → cs[k]? = some c →
        ∀ tv tr,
        checkBuyTicketInput indeterminate tx inputs (i + k) txIn (tv, tr) =
          .ok (.ok (tv + c.voteFeeLimit, tr + c.revocationFeeLimit))) →
      checkBuyTicketInputLoop indeterminate tx inputs i ins (tv, tr) =
        .ok (.ok (tv + (cs.map (·.voteFeeLimit)).sum, tr + (cs.map (·.revocationFeeLimit)).sum))
  | [], [], _, tv, tr, _, _ => by simp [checkBuyTicketInputLoop]
  | txIn :: ins, c :: cs, i, tv, tr, hlen, h => by
    have h0 := h 0 txIn c rfl rfl tv tr
    rw [Nat.add_zero] at h0
    rw [checkBuyTicketInputLoop, h0, except_ok_bind]
    dsimp only
    rw [checkBuyTicketInputLoop_of_forall ins cs (i + 1) _ _ (by simpa using hlen)
      fun k txIn' c' hin hc tv tr => by
        have := h (k + 1) txIn' c' (by simpa using hin) (by simpa using hc) tv tr
        rwa [show i + (k + 1) = i + 1 + k by omega] at this]
    simp only [List.map_cons, List.sum_cons, Int.add_assoc]
  | [], _ :: _, _, _, _, hlen, _ => by simp at hlen
  | _ :: _, [], _, _, _, hlen, _ => by simp at hlen

/-! ## Purchases as the wallet writes them -/

section purchase

variable {params : Params} {indeterminate : TicketContribData} {tx : Primitives.CTransaction}
  {inputs : COutPoint → Coin} {decl : BuyTicketData} {stake : CTxOut}
  {parts : List (TicketContribData × CTxOut)}

/-- **On a purchase laid out as the wallet writes it, `checkBuyTicketInputs` compares the fee
limit totals that `ParseTicketContribs` returns.** When every coin exists, is a legal input and
equals its contribution plus its change, the verdict is the comparison of those totals with the
minimums, whatever the value `ParseTicketContrib` starts from.
Source: `src/consensus/tx_verify.cpp` `checkBuyTicketInputs`; `src/stake/staketx.cpp`
`ParseTicketContribs`
Kind: T -/
theorem checkBuyTicketInputs_ticketPurchase
    (hvout : tx.vout = ticketPurchaseOutputs decl stake parts)
    (hvin : tx.vin.length = parts.length) (hn : 0 < parts.length)
    (hmax : parts.length ≤ buyTicketMaxInputs) (hdecl : decl.nVersion ≠ -1)
    (hdecl' : decl.nVersion.natAbs < 2 ^ 63) (hstake : isUnspendable stake.scriptPubKey = false)
    (hparts : ∀ p ∈ parts, p.1.Decodable ∧ isUnspendable p.2.scriptPubKey = false)
    (hcoins : ∀ (k : Nat) (txIn : CTxIn) (p : TicketContribData × CTxOut), tx.vin[k]? = some txIn →
      parts[k]? = some p →
      (inputs txIn.prevout).isSpent = false ∧
      isLegalInputForBuyTicket (inputs txIn.prevout) txIn.prevout.n.toNat = .ok true ∧
      p.1.contributedAmount + p.2.nValue = (inputs txIn.prevout).out.nValue) :
    parseTicketContribs tx.outputs = .ok (true, ⟨parts.map Prod.fst,
        ((parts.map Prod.fst).map (·.contributedAmount)).sum,
        ((parts.map Prod.fst).map (·.voteFeeLimit)).sum,
        ((parts.map Prod.fst).map (·.revocationFeeLimit)).sum⟩) ∧
      checkBuyTicketInputs params indeterminate tx inputs =
        if ((parts.map Prod.fst).map (·.voteFeeLimit)).sum <
            params.nMinimumTotalVoteFeeLimit.toInt then
          .ok (.error "total-vote-fee-limit-too-low")
        else if ((parts.map Prod.fst).map (·.revocationFeeLimit)).sum <
            params.nMinimumTotalRevocationFeeLimit.toInt then
          .ok (.error "total-revocation-fee-limit-too-low")
        else .ok (.ok ()) := by
  refine ⟨parseTicketContribs_ticketPurchase ((CTransaction.outputs_vout tx).trans hvout)
    fun p hp => (hparts p hp).1, ?_⟩
  -- every input passes, each adding the fee limits of its part's contribution
  have hloop := @checkBuyTicketInputLoop_of_forall indeterminate tx inputs tx.vin (parts.map Prod.fst) 0 0 0 (by simp [hvin])
    fun k txIn c hin hc tv tr => by
      rw [List.getElem?_map, Option.map_eq_some_iff] at hc
      obtain ⟨p, hp, rfl⟩ := hc
      obtain ⟨hspent, hlegal, hamount⟩ := hcoins k txIn p hin hp
      obtain ⟨hcontrib, hchange⟩ := getElem?_ticketPurchaseOutputs decl stake parts k
      rw [hp, Option.map_some] at hcontrib hchange
      rw [← hvout] at hcontrib hchange
      rw [Nat.zero_add]
      exact checkBuyTicketInput_of_parse hspent hlegal
        (parseTicketContrib_getScriptForTicketContrib hcontrib rfl
          (hparts p (List.mem_of_getElem? hp)).1 indeterminate) hchange hamount (tv, tr)
  unfold checkBuyTicketInputs
  rw [validateBuyTicketStructure_ticketPurchase hvout hvin hn hmax hdecl hdecl' hstake hparts,
    except_ok_bind]
  dsimp only
  rw [hloop, except_ok_bind, Int.zero_add, Int.zero_add]

end purchase

/-! ## Tickets that cannot be redeemed -/

/-- Source: `src/validation.cpp` `CalculateNetRemunerations`. Kind: L -/
theorem calculateNetRemunerations_of_not_moneyRange {sort : StdSort} {dustRelayFee : CFeeRate}
    {contributions : List TicketContribData} {c : TicketContribData} (hc : c ∈ contributions)
    (hbad : moneyRange c.contributedAmount = false) (stake subsidy fee : Int)
    (feePolicy : FeeDistributionPolicy) :
    calculateNetRemunerations sort dustRelayFee contributions stake subsidy fee feePolicy = .ok [] :=
  netRemunerationsWithOrder_of_not_moneyRange hc hbad

/-- Source: `src/consensus/tx_verify.cpp` `checkVoteOrRevokeTicketInputs`. Kind: L -/
theorem checkPaymentOutputs_invalid_of_not_moneyRange {hash160 : List UInt8 → List UInt8}
    {sort : StdSort} {dustRelayFee : CFeeRate} {vote : Bool}
    {contributions : List TicketContribData} {c : TicketContribData} (hc : c ∈ contributions)
    (hbad : moneyRange c.contributedAmount = false) (stakedAmount subsidy : Int)
    (payments : List CTxOut) :
    checkPaymentOutputs hash160 sort dustRelayFee vote contributions stakedAmount subsidy payments =
      .ok (.error (voteWhat vote ++ "-invalid-ticket-contributions")) := by
  have hne : contributions.length ≠ 0 := List.length_pos_iff.2 (List.ne_nil_of_mem hc) |>.ne'
  unfold checkPaymentOutputs
  rw [calculateNetRemunerations_of_not_moneyRange hc hbad, except_ok_bind, List.length_nil,
    if_pos (Ne.symm hne)]

/-- **A ticket with a contribution outside `MoneyRange` can be neither voted nor revoked**: the
payment checks of every vote and every revocation spending it reject it with
`-invalid-ticket-contributions`, whatever the payments, the sort and the node's dust rate.
Source: `src/consensus/tx_verify.cpp` `checkVoteOrRevokeTicketInputs`; `src/validation.cpp`
`CalculateNetRemunerations`
Kind: T -/
theorem checkPaymentOutputs_of_not_moneyRange (hash160 : List UInt8 → List UInt8)
    (sort : StdSort) (dustRelayFee : CFeeRate) (vote : Bool)
    {contributions : List TicketContribData}
    (hbad : ∃ c ∈ contributions, moneyRange c.contributedAmount = false)
    (stakedAmount subsidy : Int) (payments : List CTxOut) :
    checkPaymentOutputs hash160 sort dustRelayFee vote contributions stakedAmount subsidy payments =
      .ok (.error (voteWhat vote ++ "-invalid-ticket-contributions")) := by
  obtain ⟨c, hc, hbad⟩ := hbad
  exact checkPaymentOutputs_invalid_of_not_moneyRange hc hbad stakedAmount subsidy payments

/-! ## A purchase with a negative contribution -/

/-- The contribution of `-2` of the failing input, to the key id `01…01`.
Kind: S -/
def negativeContribution : TicketContribData :=
  ⟨1, List.replicate 20 1, 1, -2, 0, 1048576, rfl, moneyRange_zero, rfl⟩

/-- The contribution of 1.5 coins that balances it, to the key id `02…02`.
Kind: S -/
def balancingContribution : TicketContribData :=
  ⟨1, List.replicate 20 2, 1, 150000000, 0, 1048576, rfl, moneyRange_zero, rfl⟩

/-- A ticket purchase with two inputs of 1 and 2 coins: the first contributes `-2` and takes a
change of 1 coin plus 2 satoshis, the second contributes 1.5 coins with a change of 0.5; the
stake is the sum of the contributions, and the outputs sum to the inputs.
Kind: S -/
def negativeContributionTicket : Primitives.CTransaction where
  vin := [⟨⟨Uint256.ofNat 1, 0⟩, [], 0xffffffff, ⟨[]⟩⟩, ⟨⟨Uint256.ofNat 1, 1⟩, [], 0xffffffff, ⟨[]⟩⟩]
  vout := ticketPurchaseOutputs ⟨1⟩ ⟨149999998, getScriptForDestination (.keyID (List.replicate 20 3))⟩
    [(negativeContribution, ⟨100000002, getScriptForDestination (.keyID (List.replicate 20 1))⟩),
      (balancingContribution, ⟨50000000, getScriptForDestination (.keyID (List.replicate 20 2))⟩)]
  nVersion := 3
  nLockTime := 0
  nExpiry := 0

/-- The coins the purchase spends: two regular P2PKH outputs of 1 and 2 coins.
Kind: S -/
def negativeContributionCoins (o : COutPoint) : Coin :=
  if o = ⟨Uint256.ofNat 1, 0⟩ then
    ⟨⟨100000000, getScriptForDestination (.keyID (List.replicate 20 1))⟩, false, 100, .txRegular,
      by decide⟩
  else if o = ⟨Uint256.ofNat 1, 1⟩ then
    ⟨⟨200000000, getScriptForDestination (.keyID (List.replicate 20 2))⟩, false, 100, .txRegular,
      by decide⟩
  else Coin.empty

/-- A regular coin paying a key id is a legal input of a purchase.
Source: `src/consensus/tx_verify.cpp` `isLegalInputForBuyTicket`
Kind: L -/
theorem isLegalInputForBuyTicket_keyID {coin : Coin} {id : List UInt8} (hid : id.length = 20)
    (hs : coin.out.scriptPubKey = getScriptForDestination (.keyID id))
    (hc : coin.txClass = .txRegular) (txoutIndex : Nat) :
    isLegalInputForBuyTicket coin txoutIndex = .ok true := by
  unfold isLegalInputForBuyTicket
  by_cases hcb : coin.isCoinBase = true
  · rw [if_pos hcb]
  · rw [if_neg hcb]
    dsimp only
    rw [if_neg (by simp [hc]), hs]
    exact isLegalScriptTypeForStake_getScriptForDestination ⟨id, hid, Or.inl rfl⟩

/-- **`checkBuyTicketInputs` accepts a purchase whose first contribution is `-2`**, whatever the
members of the default-constructed `TicketContribData` it parses into: the contribution plus
the change is the funding, and nothing checks the amount against `MoneyRange`.
`ParseTicketContribs` returns the contribution as it is, and every vote and every revocation of
the ticket then fails its payment checks with `-invalid-ticket-contributions`.
Source: `src/consensus/tx_verify.cpp` `checkBuyTicketInputs`, `checkVoteOrRevokeTicketInputs`;
`src/stake/staketx.cpp` `ParseTicketContrib`, `ParseTicketContribs`
Kind: T -/
theorem checkBuyTicketInputs_accepts_negative_contribution (indeterminate : TicketContribData) :
    checkBuyTicketInputs main indeterminate negativeContributionTicket negativeContributionCoins =
        .ok (.ok ()) ∧
      parseTicketContribs negativeContributionTicket.outputs =
        .ok (true, ⟨[negativeContribution, balancingContribution], 149999998, 0, 2097152⟩) ∧
      moneyRange negativeContribution.contributedAmount = false ∧
      ∀ (hash160 : List UInt8 → List UInt8) (sort : StdSort) (dustRelayFee : CFeeRate)
        (vote : Bool) (stakedAmount subsidy : Int) (payments : List CTxOut),
        checkPaymentOutputs hash160 sort dustRelayFee vote
            [negativeContribution, balancingContribution] stakedAmount subsidy payments =
          .ok (.error (voteWhat vote ++ "-invalid-ticket-contributions")) := by
  have hbad : moneyRange negativeContribution.contributedAmount = false := by decide
  have hparts : ∀ p ∈ [(negativeContribution,
        (⟨100000002, getScriptForDestination (.keyID (List.replicate 20 1))⟩ : CTxOut)),
      (balancingContribution,
        (⟨50000000, getScriptForDestination (.keyID (List.replicate 20 2))⟩ : CTxOut))],
      p.1.Decodable ∧ isUnspendable p.2.scriptPubKey = false := by
    simp only [List.mem_cons, List.not_mem_nil, or_false]
    rintro p (rfl | rfl)
    · exact ⟨⟨by decide, by decide, by decide, by decide, by decide, by decide⟩, by decide⟩
    · exact ⟨⟨by decide, by decide, by decide, by decide, by decide, by decide⟩, by decide⟩
  -- each input spends its coin, a regular P2PKH output equal to contribution plus change
  have hcoin₀ : negativeContributionCoins ⟨Uint256.ofNat 1, 0⟩ =
      ⟨⟨100000000, getScriptForDestination (.keyID (List.replicate 20 1))⟩, false, 100,
        .txRegular, by decide⟩ := by
    rw [negativeContributionCoins, if_pos rfl]
  have hcoin₁ : negativeContributionCoins ⟨Uint256.ofNat 1, 1⟩ =
      ⟨⟨200000000, getScriptForDestination (.keyID (List.replicate 20 2))⟩, false, 100,
        .txRegular, by decide⟩ := by
    rw [negativeContributionCoins, if_neg (by decide), if_pos rfl]
  -- each input spends its coin, a regular P2PKH output equal to contribution plus change
  have hcoins : ∀ (k : Nat) (txIn : CTxIn) (p : TicketContribData × CTxOut),
      negativeContributionTicket.vin[k]? = some txIn →
      [(negativeContribution,
        (⟨100000002, getScriptForDestination (.keyID (List.replicate 20 1))⟩ : CTxOut)),
      (balancingContribution,
        (⟨50000000, getScriptForDestination (.keyID (List.replicate 20 2))⟩ : CTxOut))][k]? =
        some p →
      (negativeContributionCoins txIn.prevout).isSpent = false ∧
      isLegalInputForBuyTicket (negativeContributionCoins txIn.prevout) txIn.prevout.n.toNat =
        .ok true ∧
      p.1.contributedAmount + p.2.nValue = (negativeContributionCoins txIn.prevout).out.nValue := by
    intro k txIn p hin hp
    match k, hin, hp with
    | 0, hin, hp =>
      cases hin
      cases hp
      rw [hcoin₀]
      exact ⟨rfl, isLegalInputForBuyTicket_keyID rfl rfl rfl _, rfl⟩
    | 1, hin, hp =>
      cases hin
      cases hp
      rw [hcoin₁]
      exact ⟨rfl, isLegalInputForBuyTicket_keyID rfl rfl rfl _, rfl⟩
  obtain ⟨hparse, hcheck⟩ := @checkBuyTicketInputs_ticketPurchase main indeterminate
    negativeContributionTicket negativeContributionCoins _ _ _ rfl rfl (by decide)
    (by decide) (by decide) (by decide) (by decide) hparts hcoins
  refine ⟨?_, ?_, hbad, fun hash160 sort dustRelayFee vote stakedAmount subsidy payments =>
    checkPaymentOutputs_invalid_of_not_moneyRange (List.mem_cons_self) hbad stakedAmount subsidy
      payments⟩
  · rw [hcheck]
    rfl
  · rw [hparse]
    rfl

end BwsCoin.Consensus
