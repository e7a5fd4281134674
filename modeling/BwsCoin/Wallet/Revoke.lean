import Mathlib
import BwsCoin.Consensus.TxVerifySpec
import BwsCoin.Stake.RemunerationFees

/-!
# The refunds of a revocation: the wallet against consensus

`CWallet::Revoke` (`src/wallet/wallet.cpp`) pays each contributor of a missed ticket a refund:
`CalculateNetRemunerations` of the ticket price with no subsidy, the estimated fee and the
`ProportionalFee` policy. `checkVoteOrRevokeTicketInputs` (`src/consensus/tx_verify.cpp`) checks
each payment against `CalculateNetRemunerations` of the same price with no fee, under the default
`FirstContributor` policy: a payment must lie between that gross remuneration less the
contributor's revocation fee limit and the gross remuneration.

Both runs give every contributor its floor share, and the rounding loss to the last in sorted
order; the two policies sort differently. `ProportionalFee` sorts every contributor by ascending
revocation fee limit, `FirstContributor` keeps contributor 0 first. A contributor 0 with the
largest limit is last in the wallet's run (`getLast?_of_strictMax`) and never in the validator's
(`getLast?_ne_zero_of_firstContributor`), so its refund carries a loss its gross remuneration does
not have.

* `gross_lt_refund_of_fee_lt_loss` — with a fee below the rounding loss, contributor 0's refund
  exceeds its gross remuneration;
* `revokeTicket_refund_too_high` — and consensus rejects the revocation the wallet builds with
  `revocation-remuneration-too-high`.
-/

namespace BwsCoin.Wallet

open Script Stake Consensus Policy

/-! ## The model -/

/-- The payment outputs of `CWallet::Revoke`, one per contribution and its refund: to the
contributor's key id for address type 1 and its script id otherwise. A refund outside the money
range or an address type of 0 stops the revocation with the wallet's error.
Source: `src/wallet/wallet.cpp` `CWallet::Revoke` (the payment outputs)
Kind: D -/
def revokePayments : List (TicketContribData × Int) → Except String (List CTxOut)
  | [] => .ok []
  | (contrib, refund) :: rest =>
    if ¬ moneyRange refund then .error "Incorrect refund"
    else if contrib.whichAddr = 0 then .error "The refund address type is not correct"
    else
      let script :=
        if contrib.whichAddr = 1 then getScriptForDestination (.keyID contrib.rewardAddr)
        else getScriptForDestination (.scriptID contrib.rewardAddr)
      (revokePayments rest).map (⟨refund, script⟩ :: ·)

/-- The outputs of the revocation `CWallet::Revoke` builds from a ticket's contributions, its
price and the estimated fee: the declaration, then the refunds that `CalculateNetRemunerations`
gives with no subsidy and the `ProportionalFee` policy.
Source: `src/wallet/wallet.cpp` `CWallet::Revoke` (refunds, outputs)
Kind: D
Fidelity: exact from the refunds to the outputs; the fee is `GetMinimumFee` of the estimated
size, taken as an argument -/
def revokeTicketOutputs (sort : StdSort) (dustRelayFee : CFeeRate)
    (contributions : List TicketContribData) (ticketPrice fee : Int) :
    Except Fault (Except String (List CTxOut)) :=
  calculateNetRemunerations sort dustRelayFee contributions ticketPrice 0 fee .proportionalFee
    >>= fun refunds =>
      if refunds.length ≠ contributions.length then
        .ok (.error "Could not retrive correct refunds")
      else
        .ok ((revokePayments (contributions.zip refunds)).map
          (⟨0, getScriptForRevokeTicketDecl ⟨1⟩⟩ :: ·))

/-- Every payment the wallet writes goes to the destination `rewardDestination` gives for its
contribution, of the refund.
Source: `src/wallet/wallet.cpp` `CWallet::Revoke` (the payment outputs)
Kind: L -/
theorem revokePayments_eq_ok : ∀ {l : List (TicketContribData × Int)} {outs : List CTxOut},
    revokePayments l = .ok outs →
      outs = l.map fun p => ⟨p.2, getScriptForDestination (rewardDestination p.1)⟩
  | [], outs, h => by
    simp only [revokePayments, Except.ok.injEq] at h
    rw [← h, List.map_nil]
  | (contrib, refund) :: rest, outs, h => by
    unfold revokePayments at h
    by_cases hm : moneyRange refund = true
    · by_cases hw : contrib.whichAddr = 0
      · simp [hm, hw] at h
      · simp only [hm, not_true_eq_false, if_false, hw] at h
        -- the rest of the payments, behind this one
        cases hrest : revokePayments rest with
        | error e => rw [hrest] at h; cases h
        | ok outs' =>
          rw [hrest] at h
          simp only [Except.map, Except.ok.injEq] at h
          rw [← h, revokePayments_eq_ok hrest, List.map_cons]
          congr 2
          unfold rewardDestination
          split_ifs <;> rfl
    · simp [hm] at h

/-! ## The orders of the two runs -/

/-- In an order admissible under `ProportionalFee`, a contributor whose fee limit is above every
other's is last.
Source: `src/validation.cpp` `CalculateNetRemunerations` (the index sort)
Kind: L -/
theorem getLast?_of_strictMax {contributions : List TicketContribData} {vote : Bool}
    {σ : List Nat} (hσ : AdmissibleOrder contributions vote .proportionalFee σ) {m : Nat}
    (hm : m < contributions.length)
    (hmax : ∀ j < contributions.length, j ≠ m →
      feeLimitOf vote (contributions.getD j default) < feeLimitOf vote (contributions.getD m default)) :
    σ.getLast? = some m := by
  obtain ⟨hperm, -, hsorted⟩ := hσ
  -- under `ProportionalFee` the whole order is sorted
  simp only [reduceCtorEq, if_false, List.drop_zero] at hsorted
  obtain ⟨k, hk⟩ := exists_getLast?_of_perm_range hperm (by omega)
  rw [hk]
  obtain ⟨pre, rfl⟩ := List.getLast?_eq_some_iff.1 hk
  have hmem : ∀ x, x ∈ pre ++ [k] ↔ x < contributions.length := fun x => by
    rw [hperm.mem_iff, List.mem_range]
  by_contra hkm
  have hkm : k ≠ m := fun h => hkm (h ▸ rfl)
  -- `m` comes before `k`, so `k`'s limit is not below `m`'s
  have hmpre : m ∈ pre := by
    have := (hmem m).2 hm
    simpa [Ne.symm hkm] using this
  have hpair := (List.pairwise_append.1 hsorted).2.2 m hmpre k List.mem_cons_self
  have hlt := hmax k ((hmem k).1 (by simp)) hkm
  simp only [feeLimitLess, decide_eq_false_iff_not] at hpair
  exact hpair hlt

/-- In an order admissible under `FirstContributor`, of two contributors or more, contributor 0
is not last.
Source: `src/validation.cpp` `CalculateNetRemunerations` (the index sort)
Kind: L -/
theorem getLast?_ne_zero_of_firstContributor {contributions : List TicketContribData}
    {vote : Bool} {σ : List Nat} (hσ : AdmissibleOrder contributions vote .firstContributor σ)
    (hn : 2 ≤ contributions.length) {k : Nat} (hk : σ.getLast? = some k) : k ≠ 0 := by
  obtain ⟨hperm, htake, -⟩ := hσ
  obtain ⟨pre, rfl⟩ := List.getLast?_eq_some_iff.1 hk
  have hlen := hperm.length_eq
  simp only [List.length_append, List.length_singleton, List.length_range] at hlen
  obtain ⟨p, pre', rfl⟩ := List.exists_cons_of_length_pos (show 0 < pre.length by omega)
  -- the first index is `0`, and the order has no repeats
  have hp : p = 0 := by
    obtain ⟨n', hn'⟩ : ∃ n', contributions.length = n' + 1 := ⟨_, (Nat.succ_pred_eq_of_pos (by omega)).symm⟩
    simpa [hn', List.range_succ_eq_map] using htake
  have hnd : (p :: pre' ++ [k]).Nodup := hperm.nodup_iff.2 List.nodup_range
  rintro rfl
  simp [hp] at hnd

/-! ## The refund against the gross remuneration -/

/-- Over two lists of one length, the second nowhere above the first, one entry's difference is
at most the difference of the sums.
Source: none: list infrastructure
Kind: L -/
theorem getD_sub_le_sum_sub : ∀ {a b : List Int}, a.length = b.length →
    (∀ j < a.length, b.getD j 0 ≤ a.getD j 0) → ∀ j, a.getD j 0 - b.getD j 0 ≤ a.sum - b.sum
  | [], [], _, _, j => by simp
  | x :: a, y :: b, hlen, hle, j => by
    simp only [List.length_cons, Nat.add_right_cancel_iff] at hlen
    have hle' : ∀ j < a.length, b.getD j 0 ≤ a.getD j 0 := fun j hj => by
      simpa using hle (j + 1) (by simp; omega)
    -- the rest of the entries lose nothing
    have hrest : b.sum ≤ a.sum := by
      have := getD_sub_le_sum_sub hlen hle' a.length
      simp only [List.getD_eq_default _ _ (le_refl _), List.getD_eq_default _ _ (le_of_eq hlen.symm)]
        at this
      omega
    have h0 : y ≤ x := by simpa using hle 0 (by simp)
    cases j with
    | zero => simp only [List.getD_cons_zero, List.sum_cons]; omega
    | succ j =>
      have := getD_sub_le_sum_sub hlen hle' j
      simp only [List.getD_cons_succ, List.sum_cons]
      omega
  | [], _ :: _, hlen, _, _ => by simp at hlen
  | _ :: _, [], hlen, _, _ => by simp at hlen

/-- The floor shares with the loss at `k` sum to the funding.
Source: `src/validation.cpp` `CalculateNetRemunerations` (the comment on rounding errors)
Kind: L -/
theorem sum_floorSharesWithRemainder {contributions : List TicketContribData} {stake subsidy : Int}
    {k : Nat} (hk : k < contributions.length) :
    (floorSharesWithRemainder contributions stake subsidy k).sum = stake + subsidy := by
  have hsplit : ∀ (f : Nat → Int) (c : Int) (n : Nat), k < n →
      ((List.range n).map fun j => if j = k then f j + c else f j).sum =
        ((List.range n).map f).sum + c := by
    intro f c n hkn
    induction n with
    | zero => omega
    | succ n ih =>
      rw [List.range_succ, List.map_append, List.map_append, List.sum_append, List.sum_append]
      by_cases hkn' : k < n
      · rw [ih hkn']
        simp [show n ≠ k by omega]
        omega
      · have hkeq : k = n := by omega
        subst hkeq
        have hnot : ∀ j ∈ List.range k, ¬ j = k := fun j hj => by
          rw [List.mem_range] at hj
          omega
        rw [List.map_congr_left fun j hj => if_neg (hnot j hj)]
        simp
        omega
  unfold floorSharesWithRemainder
  rw [hsplit _ _ _ hk]
  omega

/-- The entry at `j` of the floor shares with the loss at `k`.
Source: `src/validation.cpp` `CalculateNetRemunerations` (the comment on rounding errors)
Kind: L -/
theorem getD_floorSharesWithRemainder {contributions : List TicketContribData} {stake subsidy : Int}
    {k j : Nat} (hj : j < contributions.length) :
    (floorSharesWithRemainder contributions stake subsidy k).getD j 0 =
      if j = k then grossShare contributions stake subsidy j + (stake + subsidy -
        ((List.range contributions.length).map (grossShare contributions stake subsidy)).sum)
      else grossShare contributions stake subsidy j := by
  simp [floorSharesWithRemainder, List.getD_eq_getElem?_getD, List.getElem?_range hj]

section refund
variable {sort : StdSort} {dustRelayFee : CFeeRate} {c₀ : TicketContribData}
  {cs : List TicketContribData} {stake fee : Int}

/-- **With a fee below the rounding loss, the wallet refunds contributor 0 more than its gross
remuneration**, when contributor 0 has the largest revocation fee limit of two contributors or
more: the wallet's run leaves it the loss less at most the fee, the validator's gives the loss to
another contributor.
Source: `src/wallet/wallet.cpp` `CWallet::Revoke`; `src/consensus/tx_verify.cpp`
`checkVoteOrRevokeTicketInputs`; `src/validation.cpp` `CalculateNetRemunerations`
Kind: L -/
theorem gross_lt_refund_of_fee_lt_loss (hsort : StdSortContract sort)
    (hrate : 0 ≤ dustRelayFee.nSatoshisPerK) (hcs : cs ≠ [])
    (hmax : ∀ c ∈ cs, c.revocationFeeLimit < c₀.revocationFeeLimit)
    (hpos : 0 < totalContribution (c₀ :: cs)) (htotal : totalContribution (c₀ :: cs) < 2 ^ 63)
    (hfee : fee < stake - ((List.range (cs.length + 1)).map (grossShare (c₀ :: cs) stake 0)).sum)
    {refunds gross : List Int}
    (hrefunds : calculateNetRemunerations sort dustRelayFee (c₀ :: cs) stake 0 fee
      .proportionalFee = .ok refunds) (hlen : refunds.length = cs.length + 1)
    (hgross : calculateNetRemunerations sort dustRelayFee (c₀ :: cs) stake 0 0
      .firstContributor = .ok gross) (hlen' : gross.length = cs.length + 1) :
    gross.getD 0 0 < refunds.getD 0 0 := by
  have hne : c₀ :: cs ≠ [] := List.cons_ne_nil _ _
  have hn : 2 ≤ (c₀ :: cs).length := by
    have := List.length_pos_iff.2 hcs
    simp only [List.length_cons]
    omega
  -- the wallet's run: contributor 0 has the largest limit, so it is last
  obtain ⟨hsum, -, k', hk', hcharge⟩ :=
    calculateNetRemunerations_charges hsort hrate hne htotal hrefunds hlen
  have hk'0 : k' = 0 := by
    have hlast := getLast?_of_strictMax
      (sortIndexes_admissible hsort hne (decide (0 < (0 : Int))) .proportionalFee) (m := 0)
      (by simp) fun j hj hj0 => by
        obtain ⟨j', rfl⟩ := Nat.exists_eq_succ_of_ne_zero hj0
        have hmem : cs.getD j' default ∈ cs := by
          rw [List.getD_eq_getElem _ _ (by simpa using hj)]
          exact List.getElem_mem _
        simpa [feeLimitOf] using hmax _ hmem
    rw [hk'] at hlast
    exact Option.some.inj hlast
  subst hk'0
  -- the validator's run: contributor 0 stays first, so another is last
  have hσ := sortIndexes_admissible hsort hne (decide (0 < (0 : Int))) .firstContributor
  obtain ⟨k, hk⟩ := exists_getLast?_of_perm_range hσ.1 (by simp)
  have hk0 : k ≠ 0 := getLast?_ne_zero_of_firstContributor hσ hn hk
  have hgross_eq : gross = floorSharesWithRemainder (c₀ :: cs) stake 0 k :=
    netRemunerationsWithOrder_of_fee_zero hσ.1 hk hpos (by omega) hgross
      (List.ne_nil_of_length_pos (by omega))
  -- contributor 0 is charged at most the whole fee against its share with the loss
  have hlenF : (floorSharesWithRemainder (c₀ :: cs) stake 0 0).length = cs.length + 1 := by
    simp [floorSharesWithRemainder]
  have hle := getD_sub_le_sum_sub (a := floorSharesWithRemainder (c₀ :: cs) stake 0 0)
    (b := refunds) (hlenF.trans hlen.symm) (fun j hj => by
      have := (hcharge j (by rw [hlenF] at hj; simpa using hj)).1
      omega) 0
  rw [sum_floorSharesWithRemainder (by simp), hsum] at hle
  have hf0 : (floorSharesWithRemainder (c₀ :: cs) stake 0 0).getD 0 0 =
      grossShare (c₀ :: cs) stake 0 0 +
        (stake + 0 - ((List.range (c₀ :: cs).length).map (grossShare (c₀ :: cs) stake 0)).sum) := by
    rw [getD_floorSharesWithRemainder (by simp), if_pos rfl]
  have hg0 : (floorSharesWithRemainder (c₀ :: cs) stake 0 k).getD 0 0 =
      grossShare (c₀ :: cs) stake 0 0 := by
    rw [getD_floorSharesWithRemainder (by simp), if_neg (Ne.symm hk0)]
  rw [hgross_eq, hg0]
  simp only [List.length_cons, Int.add_zero] at hf0 hle hfee
  omega

/-- **Consensus rejects the wallet's revocation when contributor 0 has the largest revocation
fee limit and the fee is below the rounding loss.** For every conforming sort, node fee rate,
ticket of two contributors or more whose first has the largest limit and pays to a key or script
id, and every fee below what the floor shares lose, the revocation `CWallet::Revoke` builds fails
the payment checks of `checkVoteOrRevokeTicketInputs` at its first payment, when the validator's
gross remunerations succeed: the refund is above the gross remuneration.
Source: `src/wallet/wallet.cpp` `CWallet::Revoke`; `src/consensus/tx_verify.cpp`
`checkVoteOrRevokeTicketInputs`; `src/validation.cpp` `CalculateNetRemunerations`
Kind: T -/
theorem revokeTicket_refund_too_high (hash160 : List UInt8 → List UInt8)
    (hsort : StdSortContract sort) (hrate : 0 ≤ dustRelayFee.nSatoshisPerK) (hcs : cs ≠ [])
    (hmax : ∀ c ∈ cs, c.revocationFeeLimit < c₀.revocationFeeLimit)
    (hw : c₀.whichAddr = 1 ∨ c₀.whichAddr = 2)
    (hpos : 0 < totalContribution (c₀ :: cs)) (htotal : totalContribution (c₀ :: cs) < 2 ^ 63)
    (hfee : fee < stake - ((List.range (cs.length + 1)).map (grossShare (c₀ :: cs) stake 0)).sum)
    {outs : List CTxOut}
    (hrev : revokeTicketOutputs sort dustRelayFee (c₀ :: cs) stake fee = .ok (.ok outs))
    {gross : List Int} (hgross : calculateNetRemunerations sort dustRelayFee (c₀ :: cs) stake 0 0
      .firstContributor = .ok gross) (hlen' : gross.length = cs.length + 1) :
    checkPaymentOutputs hash160 sort dustRelayFee false (c₀ :: cs) stake 0 outs.tail =
      .ok (.error "revocation-remuneration-too-high") := by
  unfold revokeTicketOutputs at hrev
  obtain ⟨refunds, hrefunds, hrev⟩ := except_bind_eq_ok.1 hrev
  have hlen : refunds.length = cs.length + 1 := by
    by_contra h
    rw [if_pos (by simpa using h)] at hrev
    cases hrev
  rw [if_neg (by simpa using hlen)] at hrev
  -- the outputs are the declaration and a payment of each refund
  obtain ⟨pays, hpays, rfl⟩ : ∃ pays, revokePayments ((c₀ :: cs).zip refunds) = .ok pays ∧
      outs = ⟨0, getScriptForRevokeTicketDecl ⟨1⟩⟩ :: pays := by
    cases h : revokePayments ((c₀ :: cs).zip refunds) with
    | error e => rw [h] at hrev; cases hrev
    | ok pays =>
      rw [h] at hrev
      exact ⟨pays, rfl, (Except.ok.inj (Except.ok.inj hrev)).symm⟩
  have hlt := gross_lt_refund_of_fee_lt_loss hsort hrate hcs hmax hpos htotal hfee hrefunds hlen
    hgross hlen'
  obtain ⟨r₀, rs, rfl⟩ := List.exists_cons_of_length_pos (show 0 < refunds.length by omega)
  obtain ⟨g₀, gs, rfl⟩ := List.exists_cons_of_length_pos (show 0 < gross.length by omega)
  simp only [List.getD_cons_zero] at hlt
  have hlim : 0 ≤ feeLimitOf false c₀ := (moneyRange_iff.1 c₀.revocationFeeLimit_mem).1
  -- the first payment is contributor 0's, of a refund above its gross remuneration
  unfold checkPaymentOutputs
  rw [hgross, except_ok_bind, if_neg (by simpa using hlen'), List.tail_cons,
    revokePayments_eq_ok hpays]
  simp only [List.zip_cons_cons, List.map_cons, checkPayments,
    checkPayment_rewardDestination hash160 false _ hw]
  rw [if_neg (by omega), if_pos hlt]
  rfl

/-- Three contributors of one coin, one coin and one coin and a satoshi, to the key ids `01…01`
and `02…02` and the script id `03…03`, with revocation fee limits of 30, 10 and 20 satoshis, on a
ticket of three coins (the purchase paid the last satoshi as its fee) revoked with a fee of one
satoshi: the floors lose two satoshis, the wallet refunds contributor 0 one coin, and its gross
remuneration is a satoshi less.
Kind: W -/
theorem revokeTicket_refund_too_high_three_coins :
    ∃ outs, revokeTicketOutputs insertionSortIndexes defaultDustRelayFee
        [⟨1, List.replicate 20 1, 1, 100000000, 0, 30, rfl, rfl, rfl⟩,
          ⟨1, List.replicate 20 2, 1, 100000000, 0, 10, rfl, rfl, rfl⟩,
          ⟨1, List.replicate 20 3, 2, 100000001, 0, 20, rfl, rfl, rfl⟩] 300000000 1 =
        .ok (.ok outs) ∧
      checkPaymentOutputs id insertionSortIndexes defaultDustRelayFee false
        [⟨1, List.replicate 20 1, 1, 100000000, 0, 30, rfl, rfl, rfl⟩,
          ⟨1, List.replicate 20 2, 1, 100000000, 0, 10, rfl, rfl, rfl⟩,
          ⟨1, List.replicate 20 3, 2, 100000001, 0, 20, rfl, rfl, rfl⟩] 300000000 0 outs.tail =
        .ok (.error "revocation-remuneration-too-high") := by
  have hrev : revokeTicketOutputs insertionSortIndexes defaultDustRelayFee
      [⟨1, List.replicate 20 1, 1, 100000000, 0, 30, rfl, rfl, rfl⟩,
        ⟨1, List.replicate 20 2, 1, 100000000, 0, 10, rfl, rfl, rfl⟩,
        ⟨1, List.replicate 20 3, 2, 100000001, 0, 20, rfl, rfl, rfl⟩] 300000000 1 =
      .ok (.ok [⟨0, getScriptForRevokeTicketDecl ⟨1⟩⟩,
        ⟨100000000, getScriptForDestination (.keyID (List.replicate 20 1))⟩,
        ⟨99999999, getScriptForDestination (.keyID (List.replicate 20 2))⟩,
        ⟨100000000, getScriptForDestination (.scriptID (List.replicate 20 3))⟩]) := by decide
  have hgross : calculateNetRemunerations insertionSortIndexes defaultDustRelayFee
      [⟨1, List.replicate 20 1, 1, 100000000, 0, 30, rfl, rfl, rfl⟩,
        ⟨1, List.replicate 20 2, 1, 100000000, 0, 10, rfl, rfl, rfl⟩,
        ⟨1, List.replicate 20 3, 2, 100000001, 0, 20, rfl, rfl, rfl⟩] 300000000 0 0
      .firstContributor = .ok [99999999, 99999999, 100000002] := by decide
  exact ⟨_, hrev, revokeTicket_refund_too_high id insertionSortIndexes_contract (by decide)
    (List.cons_ne_nil _ _) (by decide) (Or.inl rfl) (by decide) (by decide) (by decide) hrev
    hgross rfl⟩

end refund

end BwsCoin.Wallet
