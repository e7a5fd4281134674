import BwsCoin.Consensus.TxVerify
import BwsCoin.Script.Classify

/-!
# What the verdict on a vote or a revocation depends on

A payment to the destination the wallet builds for a contribution passes the address checks,
and then only its amount is checked (`checkPayment_rewardDestination`); a transaction paying
every contributor exactly its remuneration so passes the payment checks
(`checkPaymentOutputs_exact_payouts`). The payment checks reject only with the six reasons of
the payment loop (`checkPayments_reason`), so a rejection with `-invalid-ticket-contributions`
comes from the remunerations alone. These are computed with the node's `::dustRelayFee`: a
remuneration that passes the dust test at one node's rate and fails it at another's makes the
second node reject a transaction the first accepts
(`checkPaymentOutputs_depends_on_dustRelayFee`).
-/

namespace BwsCoin.Consensus

open Script Stake Policy

/-! ## Payments to the contributors' own destinations -/

/-- The destination the wallet pays a contributor at: its key id for `whichAddr == 1`, its script
id otherwise.
Source: `src/wallet/wallet.cpp` `CWallet::Revoke` (the payment outputs)
Kind: S -/
def rewardDestination (c : TicketContribData) : CTxDestination :=
  if c.whichAddr = 1 then .keyID c.rewardAddr else .scriptID c.rewardAddr

/-- The wallet's destination of a contribution of address type 1 or 2 is of that type, at the
contribution's address.
Source: `src/wallet/wallet.cpp` `CWallet::Revoke` (the payment outputs)
Kind: L -/
theorem rewardDestination_spec {c : TicketContribData} (hw : c.whichAddr = 1 ∨ c.whichAddr = 2) :
    (rewardDestination c).which = c.whichAddr ∧ destinationAddr (rewardDestination c) = c.rewardAddr ∧
      isValidDestination (rewardDestination c) = true ∧
      ∃ id, id.length = 20 ∧
        (rewardDestination c = .keyID id ∨ rewardDestination c = .scriptID id) := by
  rcases hw with hw | hw
  · simp [rewardDestination, hw, CTxDestination.which, destinationAddr, isValidDestination,
      c.rewardAddr_length]
  · simp [rewardDestination, hw, CTxDestination.which, destinationAddr, isValidDestination,
      c.rewardAddr_length]

/-- Source: `src/consensus/tx_verify.cpp` `isLegalScriptTypeForStake`. Kind: L -/
theorem isLegalScriptTypeForStake_getScriptForDestination {d : CTxDestination}
    (hd : ∃ id, id.length = 20 ∧ (d = .keyID id ∨ d = .scriptID id)) :
    isLegalScriptTypeForStake (getScriptForDestination d) = .ok true := by
  obtain ⟨id, hid, rfl | rfl⟩ := hd
  · simp [isLegalScriptTypeForStake, solver_getScriptForDestination_keyID hid]
  · simp [isLegalScriptTypeForStake, solver_getScriptForDestination_scriptID hid]

/-- A payment to the contribution's own destination passes every address check, and is then
judged by its amount alone.
Source: `src/consensus/tx_verify.cpp` `checkVoteOrRevokeTicketInputs` (the loop body)
Kind: L -/
theorem checkPayment_rewardDestination (hash160 : List UInt8 → List UInt8) (vote : Bool)
    (what : String) {c : TicketContribData} (hw : c.whichAddr = 1 ∨ c.whichAddr = 2)
    (value g : Int) :
    checkPayment hash160 vote what ⟨value, getScriptForDestination (rewardDestination c)⟩ c g =
      .ok (if value < g - feeLimitOf vote c then .error (what ++ "-remuneration-too-low")
        else if value > g then .error (what ++ "-remuneration-too-high") else .ok ()) := by
  obtain ⟨hwhich, haddr, hvalid, hd⟩ := rewardDestination_spec hw
  simp only [checkPayment, isLegalScriptTypeForStake_getScriptForDestination hd, except_ok_bind,
    not_true_eq_false, if_false, extractDestination_getScriptForDestination hash160 hd, hvalid,
    hwhich, haddr, ne_eq]
  split_ifs <;> rfl

/-- A vote or revocation paying every contributor exactly its remuneration, at the destination
the wallet builds, passes the payment checks.
Source: `src/consensus/tx_verify.cpp` `checkVoteOrRevokeTicketInputs`; `src/wallet/wallet.cpp`
`CWallet::Revoke`
Kind: T -/
theorem checkPaymentOutputs_exact_payouts (hash160 : List UInt8 → List UInt8) (sort : StdSort)
    (dustRelayFee : CFeeRate) (vote : Bool) {contributions : List TicketContribData}
    {stakedAmount subsidy : Int} {v : List Int}
    (hv : calculateNetRemunerations sort dustRelayFee contributions stakedAmount subsidy 0
      .firstContributor = .ok v)
    (hlen : v.length = contributions.length)
    (hw : ∀ c ∈ contributions, c.whichAddr = 1 ∨ c.whichAddr = 2) :
    checkPaymentOutputs hash160 sort dustRelayFee vote contributions stakedAmount subsidy
      ((contributions.zip v).map fun p => ⟨p.2, getScriptForDestination (rewardDestination p.1)⟩) =
      .ok (.ok ()) := by
  unfold checkPaymentOutputs
  simp only [hv, except_ok_bind]
  rw [if_neg (not_not.2 hlen)]
  -- each payment is its own remuneration, within the contributor's (nonnegative) fee limit
  have hpays : ∀ (l : List (TicketContribData × Int)), (∀ p ∈ l, p.1 ∈ contributions) →
      checkPayments hash160 vote (voteWhat vote)
        ((l.map fun p => (⟨p.2, getScriptForDestination (rewardDestination p.1)⟩ : CTxOut)).zip l) =
        .ok (.ok ()) := by
    intro l hl
    induction l with
    | nil => rfl
    | cons p l ih =>
      obtain ⟨c, g⟩ := p
      have hc : c ∈ contributions := hl (c, g) List.mem_cons_self
      have hlim : 0 ≤ feeLimitOf vote c := by
        unfold feeLimitOf
        split_ifs
        · exact (moneyRange_iff.1 c.voteFeeLimit_mem).1
        · exact (moneyRange_iff.1 c.revocationFeeLimit_mem).1
      simp only [List.map_cons, List.zip_cons_cons, checkPayments,
        checkPayment_rewardDestination hash160 vote (voteWhat vote) (hw c hc)]
      rw [if_neg (by omega), if_neg (by omega), except_ok_bind]
      exact ih fun p hp => hl p (List.mem_cons_of_mem _ hp)
  exact hpays _ fun p hp => (List.of_mem_zip hp).1

/-- The two-coin ticket of 1.99 and 0.01 coin, revoked at the default `::dustRelayFee` with each
contributor refunded exactly.
Kind: W -/
theorem checkPaymentOutputs_exact_payouts_two_contributors :
    let cs : List TicketContribData :=
      [⟨1, List.replicate 20 1, 1, 199000000, 0, 1048576, rfl, rfl, rfl⟩,
        ⟨1, List.replicate 20 2, 2, 1000000, 0, 1048576, rfl, rfl, rfl⟩]
    calculateNetRemunerations insertionSortIndexes defaultDustRelayFee cs 200000000 0 0
      .firstContributor = .ok [199000000, 1000000] ∧
    checkPaymentOutputs id insertionSortIndexes defaultDustRelayFee false cs 200000000 0
      ((cs.zip [199000000, 1000000]).map fun p =>
        ⟨p.2, getScriptForDestination (rewardDestination p.1)⟩) = .ok (.ok ()) := by
  intro cs
  have hv : calculateNetRemunerations insertionSortIndexes defaultDustRelayFee cs 200000000 0 0
      .firstContributor = .ok [199000000, 1000000] := by decide
  exact ⟨hv, checkPaymentOutputs_exact_payouts id insertionSortIndexes defaultDustRelayFee false hv
    rfl (by decide)⟩

/-- The reasons the payment loop rejects with.
Source: `src/consensus/tx_verify.cpp` `checkVoteOrRevokeTicketInputs` (the payment loop)
Kind: S -/
def paymentRejectReasons (what : String) : List String :=
  [what ++ "-invalid-payment-type", what ++ "-invalid-payment-address",
    what ++ "-incorrect-address-type", what ++ "-incorrect-payment-address",
    what ++ "-remuneration-too-low", what ++ "-remuneration-too-high"]

section payments

variable {hash160 : List UInt8 → List UInt8} {vote : Bool} {what reason : String}

/-- Every rejection of one payment names one of the payment checks.
Source: `src/consensus/tx_verify.cpp` `checkVoteOrRevokeTicketInputs` (the loop body)
Kind: L -/
theorem checkPayment_reason {out : CTxOut} {contrib : TicketContribData} {g : Int}
    (h : checkPayment hash160 vote what out contrib g = .ok (.error reason)) :
    reason ∈ paymentRejectReasons what := by
  unfold checkPayment at h
  obtain ⟨legal, -, h⟩ := except_bind_eq_ok.1 h
  cases legal with
  | false =>
    simp only [Bool.false_eq_true, not_false_eq_true, if_true, Except.ok.injEq,
      Except.error.injEq] at h
    simp [← h, paymentRejectReasons]
  | true =>
    simp only [not_true_eq_false, if_false] at h
    obtain ⟨dest, -, h⟩ := except_bind_eq_ok.1 h
    rcases dest with _ | dest
    · simp only [Except.ok.injEq, Except.error.injEq] at h
      simp [← h, paymentRejectReasons]
    · dsimp only at h
      split_ifs at h <;> simp only [Except.ok.injEq, Except.error.injEq, reduceCtorEq] at h <;>
        simp [← h, paymentRejectReasons]

/-- Every rejection of the payment loop names one of the payment checks.
Source: `src/consensus/tx_verify.cpp` `checkVoteOrRevokeTicketInputs` (the payment loop)
Kind: L -/
theorem checkPayments_reason :
    ∀ (l : List (CTxOut × TicketContribData × Int)),
    checkPayments hash160 vote what l = .ok (.error reason) → reason ∈ paymentRejectReasons what
  | [], h => by simp [checkPayments] at h
  | (out, contrib, g) :: rest, h => by
    simp only [checkPayments] at h
    obtain ⟨verdict, hpay, h⟩ := except_bind_eq_ok.1 h
    rcases verdict with r | ⟨⟩
    · simp only [Except.ok.injEq, Except.error.injEq] at h
      subst h
      exact checkPayment_reason hpay
    · exact checkPayments_reason rest h

end payments

/-- A rejection for the contributions is none of the payment checks'.
Source: `src/consensus/tx_verify.cpp` `checkVoteOrRevokeTicketInputs`
Kind: L -/
theorem invalidContributions_not_mem_paymentRejectReasons (vote : Bool) :
    voteWhat vote ++ "-invalid-ticket-contributions" ∉ paymentRejectReasons (voteWhat vote) := by
  cases vote <;> decide

/-- Whenever a remuneration computed at one node's `::dustRelayFee` is dust at another's, the
second node rejects the transaction for its contributions and the first does not: the verdict
depends on the node's relay setting.
Source: `src/consensus/tx_verify.cpp` `checkVoteOrRevokeTicketInputs`, `src/validation.cpp`
`CalculateNetRemunerations` (the dust test)
Kind: T -/
theorem checkPaymentOutputs_depends_on_dustRelayFee (hash160 : List UInt8 → List UInt8)
    {sort : StdSort} (hsort : StdSortContract sort) {r₁ r₂ : CFeeRate} (vote : Bool)
    {contributions : List TicketContribData} {stakedAmount subsidy : Int} (payments : List CTxOut)
    {v : List Int}
    (hv : calculateNetRemunerations sort r₁ contributions stakedAmount subsidy 0
      .firstContributor = .ok v)
    (hdust : ∃ x ∈ v, isDust ⟨x, dummyScript⟩ r₂ = true) :
    checkPaymentOutputs hash160 sort r₂ vote contributions stakedAmount subsidy payments =
      .ok (.error (voteWhat vote ++ "-invalid-ticket-contributions")) ∧
    checkPaymentOutputs hash160 sort r₁ vote contributions stakedAmount subsidy payments ≠
      checkPaymentOutputs hash160 sort r₂ vote contributions stakedAmount subsidy payments := by
  obtain ⟨x, hx, hxdust⟩ := hdust
  have hne : v ≠ [] := List.ne_nil_of_mem hx
  have hlen : v.length = contributions.length := netRemunerationsWithOrder_length hv hne
  have hn : contributions.length ≠ 0 := by
    rw [← hlen]
    exact (List.length_pos_iff.2 hne).ne'
  -- at the second rate the dust test fails at `x`, and the remunerations are `{}`
  have hfail : v.all (remunerationAdmissible r₂) = false := by
    rw [Bool.eq_false_iff]
    intro hall
    have := List.all_eq_true.1 hall x hx
    simp [remunerationAdmissible, hxdust] at this
  have h₂ := calculateNetRemunerations_withDustRelayFee hsort r₂ hv hne
  simp only [hfail, Bool.false_eq_true, if_false] at h₂
  have hreject : checkPaymentOutputs hash160 sort r₂ vote contributions stakedAmount subsidy
      payments = .ok (.error (voteWhat vote ++ "-invalid-ticket-contributions")) := by
    unfold checkPaymentOutputs
    simp only [h₂, except_ok_bind, List.length_nil]
    rw [if_pos (Ne.symm hn)]
  refine ⟨hreject, ?_⟩
  -- at the first rate the remunerations are complete, and only the payment checks can reject
  rw [hreject]
  unfold checkPaymentOutputs
  simp only [hv, except_ok_bind]
  rw [if_neg (not_not.2 hlen)]
  intro h
  exact invalidContributions_not_mem_paymentRejectReasons vote (checkPayments_reason _ h)

/-- A two-coin ticket whose second contributor put in 0.01 coin is revoked with each contributor
refunded exactly at its own address. A node at the default `::dustRelayFee` (3000 satoshis per
kilobyte, a dust threshold of 546) accepts the refunds; a node started with
`-dustrelayfee=1` (one coin per kilobyte, a threshold of 0.182 coin) rejects the revocation.
Kind: W -/
theorem checkPaymentOutputs_depends_on_dustRelayFee_small_share :
    let c₁ : TicketContribData := ⟨1, List.replicate 20 1, 1, 199000000, 0, 1048576, rfl, rfl, rfl⟩
    let c₂ : TicketContribData := ⟨1, List.replicate 20 2, 1, 1000000, 0, 1048576, rfl, rfl, rfl⟩
    let refunds : List CTxOut := [⟨199000000, getScriptForDestination (rewardDestination c₁)⟩,
      ⟨1000000, getScriptForDestination (rewardDestination c₂)⟩]
    checkPaymentOutputs id insertionSortIndexes defaultDustRelayFee false [c₁, c₂] 200000000 0
      refunds = .ok (.ok ()) ∧
    checkPaymentOutputs id insertionSortIndexes ⟨coin⟩ false [c₁, c₂] 200000000 0 refunds =
      .ok (.error "revocation-invalid-ticket-contributions") := by
  intro c₁ c₂ refunds
  have hv : calculateNetRemunerations insertionSortIndexes defaultDustRelayFee [c₁, c₂] 200000000 0
      0 .firstContributor = .ok [199000000, 1000000] := by decide
  have haccept : checkPaymentOutputs id insertionSortIndexes defaultDustRelayFee false [c₁, c₂]
      200000000 0 refunds = .ok (.ok ()) := by
    unfold checkPaymentOutputs
    simp only [hv, except_ok_bind]
    rw [if_neg (by decide)]
    simp only [refunds, List.zip_cons_cons, List.zip_nil_right, checkPayments,
      checkPayment_rewardDestination id false (voteWhat false) (c := c₁) (Or.inl rfl),
      checkPayment_rewardDestination id false (voteWhat false) (c := c₂) (Or.inl rfl)]
    decide
  exact ⟨haccept, (checkPaymentOutputs_depends_on_dustRelayFee id insertionSortIndexes_contract
    false refunds hv ⟨1000000, by simp, by decide⟩).1⟩

end BwsCoin.Consensus
