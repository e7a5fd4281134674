import BwsCoin.Stake.RemunerationSpec
import Mathlib.Tactic.Linarith

/-!
# What `CalculateNetRemunerations` pays with a fee

With a fee, each turn of the loop takes a contribution fee from the initial remuneration: the
policy's fee, capped by the contributor's limit and then lowered to leave the output just above
dust (`remunerationStep_spec`). What the policy asks never overdraws the fee (`FeeBudget`): the
first contributor pays what is unpaid, an equal part is `fee / n`, and a proportional part is the
floor of the contribution's share of the fee. So the last contributor pays exactly what is left
(`FeeBudget.last`), and a whole run pays the funding less the fee, in entries that are not dust,
each at most its contributor's limit below its gross share (`calculateNetRemunerations_conserves`).

Two facts of the node enter. `::dustRelayFee` is positive: `-dustrelayfee` is parsed by
`ParseMoney`, which takes no sign, and zero is refused at startup (`src/init.cpp`); the dust
threshold of the dummy output is then one nonnegative number (`dummyDustThreshold`). And
`totalContribution` is a `CAmount` sum, which the statements keep below `2^63`, where its
accumulation is defined.
-/

namespace BwsCoin.Stake

open Script BwsCoin.Pow Policy

/-! ## The dust threshold of the dummy output -/

/-- The dust threshold of an output to `dummyScript`: the same for every value.
Source: `src/validation.cpp` `CalculateNetRemunerations` (`GetDustThreshold(CTxOut(..,
dummyScript), ::dustRelayFee)`)
Kind: S -/
def dummyDustThreshold (r : CFeeRate) : Int := getDustThreshold ⟨0, dummyScript⟩ r

/-- Source: `src/policy/policy.cpp` `GetDustThreshold`. Kind: L -/
theorem getDustThreshold_dummyScript (x : Int) (r : CFeeRate) :
    getDustThreshold ⟨x, dummyScript⟩ r = dummyDustThreshold r :=
  getDustThreshold_nValue x 0 dummyScript r

/-- An output to `dummyScript` is not dust exactly when it reaches the threshold.
Source: `src/policy/policy.cpp` `IsDust`
Kind: L -/
theorem isDust_dummyScript_eq_false {x : Int} {r : CFeeRate} :
    isDust ⟨x, dummyScript⟩ r = false ↔ dummyDustThreshold r ≤ x := by
  rw [isDust, getDustThreshold_dummyScript, decide_eq_false_iff_not, Int.not_lt]

/-- Source: `src/validation.cpp` `CalculateNetRemunerations`. Kind: L -/
theorem remunerationAdmissible_iff {r : CFeeRate} {x : Int} :
    remunerationAdmissible r x = true ↔ moneyRange x = true ∧ dummyDustThreshold r ≤ x := by
  rw [remunerationAdmissible, Bool.and_eq_true, Bool.not_eq_true', isDust_dummyScript_eq_false]

/-- No fee limit is negative: both are in the money range.
Source: `src/stake/staketx.h` `TicketContribData`
Kind: L -/
theorem feeLimitOf_nonneg (vote : Bool) (c : TicketContribData) : 0 ≤ feeLimitOf vote c := by
  unfold feeLimitOf
  split
  · exact (moneyRange_iff.1 c.voteFeeLimit_mem).1
  · exact (moneyRange_iff.1 c.revocationFeeLimit_mem).1

/-! ## The loop's variables -/

/-- What a run of the loop may assume of the arguments: the preconditions it passed,
`totalContribution` the sum of the contributions within `CAmount`, and a fee rate that
`-dustrelayfee` admits.
Source: `src/validation.cpp` `CalculateNetRemunerations` (the preconditions, `totalContribution`)
Kind: S -/
structure NetRemunerationEnv.Valid (e : NetRemunerationEnv) : Prop where
  stake : moneyRange e.stake = true
  subsidy : moneyRange e.subsidy = true
  fee : moneyRange e.fee = true
  contributions : e.contributions.all (fun c => moneyRange c.contributedAmount) = true
  total : e.totalContribution = Stake.totalContribution e.contributions
  total_lt : e.totalContribution < 2 ^ 63
  rate : 0 ≤ e.dustRelayFee.nSatoshisPerK

namespace NetRemunerationEnv.Valid

variable {e : NetRemunerationEnv} (he : e.Valid)
include he

/-- Source: `src/validation.cpp` `CalculateNetRemunerations`. Kind: L -/
theorem amount (j : Nat) :
    0 ≤ (e.contribution j).contributedAmount ∧
      (e.contribution j).contributedAmount ≤ e.totalContribution := by
  rw [he.total]
  exact contributedAmount_le_total he.contributions j

/-- Source: `src/validation.cpp` `CalculateNetRemunerations` (`funding`). Kind: L -/
theorem funding_bounds : 0 ≤ e.funding ∧ e.funding < 2 ^ 63 := by
  have hs := moneyRange_iff.1 he.stake
  have hsub := moneyRange_iff.1 he.subsidy
  simp only [NetRemunerationEnv.funding, maxMoney, coin] at hs hsub ⊢
  omega

/-- Source: `src/validation.cpp` `CalculateNetRemunerations`. Kind: L -/
theorem fee_bounds : 0 ≤ e.fee ∧ e.fee < 2 ^ 63 := by
  have hf := moneyRange_iff.1 he.fee
  simp only [maxMoney, coin] at hf
  omega

/-- Source: `src/policy/policy.cpp` `GetDustThreshold`. Kind: L -/
theorem dust_nonneg : 0 ≤ dummyDustThreshold e.dustRelayFee :=
  getDustThreshold_nonneg _ he.rate

end NetRemunerationEnv.Valid

/-! ## The fixed-point share that did not throw -/

/-- A fixed-point share that was computed, of a part `a` of a total `d` that fits `uint64_t`,
had a nonzero divisor and is the floor share.
Source: `src/validation.cpp` `CalculateGrossRemuneration`, `CalculateNetRemunerations`
(`ProportionalFee`)
Kind: L -/
theorem scaledShare_ok_eq {a b d f : Int} (h : scaledShare a b d = .ok f) (ha : 0 ≤ a)
    (had : a ≤ d) (hd : d < 2 ^ 64) (hb : 0 ≤ b) (hb' : b < 2 ^ 63) :
    0 < d ∧ f = a * b / d := by
  have hd0 : 0 < d := by
    rcases Int.lt_or_eq_of_le (Int.le_trans ha had) with hd0 | hd0
    · exact hd0
    · -- `arith_uint256` division by zero throws
      subst hd0
      simp [scaledShare, uint64Of, div256] at h
  have hq : a * b / d ≤ b := by
    apply Int.ediv_le_of_le_mul hd0
    calc a * b ≤ d * b := Int.mul_le_mul_of_nonneg_right had hb
      _ = b * d := Int.mul_comm _ _
  rw [scaledShare_eq ha (by omega) hb (by omega) hd0 hd (by omega)] at h
  exact ⟨hd0, (Except.ok.inj h).symm⟩

/-! ## One turn with a fee -/

section step

variable {e : NetRemunerationEnv}

/-- The cap by the contributor's limit lowers the fee to the limit, and fails only at the last
position.
Source: `src/validation.cpp` `CalculateNetRemunerations` (`if (contributionFee > feeLimit)`)
Kind: L -/
theorem capFee_spec {i : Nat} {feeLimit contributionFee c : Int}
    (h : capFee e i feeLimit contributionFee = some c) :
    c ≤ feeLimit ∧ c ≤ contributionFee ∧ (0 ≤ feeLimit → 0 ≤ contributionFee → 0 ≤ c) ∧
      (i = e.n - 1 → c = contributionFee) := by
  unfold capFee at h
  split at h
  · split at h
    · cases h
    · rename_i hi
      cases h
      exact ⟨Int.le_refl _, by omega, fun hL _ => hL, fun h' => absurd h' hi⟩
  · cases h
    exact ⟨by omega, Int.le_refl _, fun _ h' => h', fun _ => rfl⟩

/-- The cap by the dust threshold lowers the fee to leave the remuneration at the threshold, and
fails only at the last position; what is left is never dust.
Source: `src/validation.cpp` `CalculateNetRemunerations` (`dustThreshold`)
Kind: L -/
theorem dustCapFee_spec (hD : 0 ≤ dummyDustThreshold e.dustRelayFee) {i : Nat}
    {remuneration contributionFee f : Int}
    (hrem : dummyDustThreshold e.dustRelayFee ≤ remuneration)
    (h : dustCapFee e i remuneration contributionFee = some f) :
    f ≤ contributionFee ∧ (0 ≤ contributionFee → 0 ≤ f) ∧ (i = e.n - 1 → f = contributionFee) ∧
      dummyDustThreshold e.dustRelayFee ≤ remuneration - f := by
  unfold dustCapFee at h
  simp only [getDustThreshold_dummyScript] at h
  split at h
  · split at h
    · cases h
    · rename_i hcap hi
      cases h
      exact ⟨by omega, fun _ => by omega, fun h' => absurd h' hi, by omega⟩
  · rename_i hcap
    cases h
    exact ⟨Int.le_refl _, id, fun _ => rfl, by omega⟩

/-- The fee a turn takes, `f`, from a `paidFee` of `p`: nothing without a fee; with one, at most
the policy's fee, at least zero when that is, and the policy's fee itself at the last position.
Source: `src/validation.cpp` `CalculateNetRemunerations` (`// fee`)
Kind: S -/
def FeeTaken (e : NetRemunerationEnv) (i j : Nat) (p f : Int) : Prop :=
  (¬ 0 < e.fee → f = 0) ∧
    (0 < e.fee → ∃ pf, policyFee e i j (e.contribution j) p = .ok pf ∧ f ≤ pf ∧
      (0 ≤ pf → 0 ≤ f) ∧ (i = e.n - 1 → f = pf))

/-- The fee branch of a turn that goes on.
Source: `src/validation.cpp` `CalculateNetRemunerations` (`// fee`)
Kind: L -/
theorem feeStep_spec (he : e.Valid) {i j : Nat} {remuneration p net p' : Int}
    (hrem : dummyDustThreshold e.dustRelayFee ≤ remuneration)
    (h : feeStep e i j (e.contribution j) remuneration p = .ok (some (net, p'))) :
    ∃ pf f, policyFee e i j (e.contribution j) p = .ok pf ∧ net = remuneration - f ∧
      p' = p + f ∧ f ≤ feeLimitOf e.vote (e.contribution j) ∧ f ≤ pf ∧ (0 ≤ pf → 0 ≤ f) ∧
      (i = e.n - 1 → f = pf) ∧ dummyDustThreshold e.dustRelayFee ≤ net := by
  unfold feeStep at h
  obtain ⟨pf, hpf, h⟩ := except_bind_eq_ok.1 h
  obtain ⟨capped, hcap, h⟩ := Option.bind_eq_some_iff.1 (Except.ok.inj h)
  obtain ⟨f, hdust, hf⟩ := Option.map_eq_some_iff.1 h
  obtain ⟨rfl, rfl⟩ := Prod.mk.inj hf
  obtain ⟨hcL, hcpf, hcnn, hclast⟩ := capFee_spec hcap
  obtain ⟨hfc, hfnn, hflast, hnet⟩ := dustCapFee_spec he.dust_nonneg hrem hdust
  refine ⟨pf, f, hpf, rfl, rfl, Int.le_trans hfc hcL, Int.le_trans hfc hcpf, ?_, ?_, hnet⟩
  · intro hpf0
    exact hfnn (hcnn (feeLimitOf_nonneg _ _) hpf0)
  · intro hi
    rw [hflast hi, hclast hi]

/-- What a turn that goes on does: it writes at `j` the initial remuneration less the fee it
takes, which is at most the contributor's limit and leaves no dust, and adds the fee to
`paidFee`.
Source: `src/validation.cpp` `CalculateNetRemunerations` (the loop body)
Kind: L -/
theorem remunerationStep_spec (he : e.Valid) {i j : Nat} {st st' : RemunerationState}
    (h : remunerationStep e i j st = .ok (some st')) :
    ∃ remuneration gsum f,
      initialRemuneration e i (e.contribution j) st.grossRemunerationSum =
        .ok (remuneration, gsum) ∧
      st' = ⟨st.remunerations.set j (remuneration - f), st.paidFee + f, gsum⟩ ∧
      f ≤ feeLimitOf e.vote (e.contribution j) ∧
      dummyDustThreshold e.dustRelayFee ≤ remuneration - f ∧ FeeTaken e i j st.paidFee f := by
  unfold remunerationStep at h
  obtain ⟨⟨remuneration, gsum⟩, hinit, h⟩ := except_bind_eq_ok.1 h
  dsimp only at h
  by_cases hadm : remunerationAdmissible e.dustRelayFee remuneration = true
  swap
  · simp [hadm] at h
  have hD := (remunerationAdmissible_iff.1 hadm).2
  rw [if_neg (not_not.2 hadm)] at h
  by_cases hfee : 0 < e.fee
  · rw [if_pos hfee] at h
    obtain ⟨o, hstep, h⟩ := except_bind_eq_ok.1 h
    rcases o with _ | ⟨net, p'⟩
    · cases h
    obtain ⟨pf, f, hpf, rfl, rfl, hfL, hfpf, hfnn, hflast, hnet⟩ := feeStep_spec he hD hstep
    cases h
    exact ⟨remuneration, gsum, f, hinit, rfl, hfL, hnet,
      fun h' => absurd hfee h', fun _ => ⟨pf, hpf, hfpf, hfnn, hflast⟩⟩
  · rw [if_neg hfee] at h
    cases h
    refine ⟨remuneration, gsum, 0, hinit, by rw [Int.sub_zero, Int.add_zero], feeLimitOf_nonneg _ _,
      by rwa [Int.sub_zero], fun _ => rfl, fun h' => absurd h' hfee⟩

/-- Before the last position the initial remuneration is the floor share, added to
`grossRemunerationSum`.
Source: `src/validation.cpp` `CalculateNetRemunerations` (`// initial remuneration`)
Kind: L -/
theorem initialRemuneration_of_lt_ok (he : e.Valid) {i j : Nat} {gsum remuneration gsum' : Int}
    (hi : i < e.n - 1)
    (h : initialRemuneration e i (e.contribution j) gsum = .ok (remuneration, gsum')) :
    remuneration = grossShare e.contributions e.stake e.subsidy j ∧ gsum' = gsum + remuneration := by
  unfold initialRemuneration at h
  rw [if_pos hi] at h
  obtain ⟨g, hg, h⟩ := except_bind_eq_ok.1 h
  obtain ⟨rfl, rfl⟩ := Prod.mk.inj (Except.ok.inj h)
  have hF := he.funding_bounds
  obtain ⟨-, hg⟩ := scaledShare_ok_eq hg (he.amount j).1 (he.amount j).2 (by have := he.total_lt; omega)
    hF.1 hF.2
  refine ⟨?_, rfl⟩
  rw [hg, grossShare, ← he.total]
  rfl

end step

/-! ## What the policy leaves to later turns -/

/-- The part of `FeeBudget` each policy adds, at position `i` with the indexes `js` still to
come: under `FirstContributor`, contributor 0 comes next, before anything is paid, if it is still
to come; an equal part is at most `fee / n` per turn so far; a proportional part is at most the
share of the fee of the contributions done.
Source: `src/validation.cpp` `CalculateNetRemunerations` (`contributionFee`)
Kind: S -/
def PolicyBudget (e : NetRemunerationEnv) (i : Nat) (js : List Nat) (paidFee : Int) : Prop :=
  match e.feePolicy with
  | .firstContributor => 0 ∈ js → js.head? = some 0 ∧ paidFee = 0
  | .equalFee => paidFee ≤ i * e.fee.tdiv e.n
  | .proportionalFee => paidFee * e.totalContribution ≤
      e.fee * (e.totalContribution - (js.map fun j => (e.contribution j).contributedAmount).sum)

/-- The fee paid before position `i`, with the indexes `js` still to come: between zero and the
fee, and within what the policy asks of the turns done.
Source: `src/validation.cpp` `CalculateNetRemunerations` (`paidFee`)
Kind: S -/
structure FeeBudget (e : NetRemunerationEnv) (i : Nat) (js : List Nat) (paidFee : Int) : Prop where
  nonneg : 0 ≤ paidFee
  le_fee : paidFee ≤ e.fee
  policy : PolicyBudget e i js paidFee

section budget

variable {e : NetRemunerationEnv}

/-- Under `FirstContributor`, once a turn is done contributor 0 is no longer to come.
Source: `src/validation.cpp` `CalculateNetRemunerations` (the index sort)
Kind: L -/
theorem zero_not_mem_of_head {j : Nat} {js : List Nat} {p : Int}
    (hb : 0 ∈ j :: js → (j :: js).head? = some 0 ∧ p = 0) (hnd : (j :: js).Nodup) : 0 ∉ js := by
  intro h0
  obtain ⟨hhead, -⟩ := hb (List.mem_cons_of_mem j h0)
  have hj : j = 0 := Option.some.inj hhead
  subst hj
  exact (List.nodup_cons.1 hnd).1 h0

/-- `fee / n` truncates like the floor for a nonnegative fee, and `n` parts of it fit the fee.
Source: `src/validation.cpp` `CalculateNetRemunerations` (`EqualFee`)
Kind: L -/
theorem tdiv_nonneg_mul_le {fee : Int} {n : Nat} (hfee : 0 ≤ fee) :
    0 ≤ fee.tdiv n ∧ (n : Int) * fee.tdiv n ≤ fee := by
  rw [Int.tdiv_eq_ediv_of_nonneg hfee]
  refine ⟨Int.ediv_nonneg hfee (Int.natCast_nonneg n), ?_⟩
  by_cases hn : (n : Int) = 0
  · rw [hn, Int.zero_mul]
    exact hfee
  · exact Int.mul_ediv_self_le hn

/-- A turn before the last keeps the budget, and takes a fee of at least zero.
Source: `src/validation.cpp` `CalculateNetRemunerations` (`contributionFee`, `paidFee`)
Kind: L -/
theorem FeeBudget.step (he : e.Valid) {i j : Nat} {js : List Nat} {p f : Int}
    (hb : FeeBudget e i (j :: js) p) (hnd : (j :: js).Nodup) (hi : i < e.n - 1)
    (hf : FeeTaken e i j p f) : 0 ≤ f ∧ FeeBudget e (i + 1) js (p + f) := by
  have hfee := he.fee_bounds
  have hp := hb.nonneg
  have hpfee := hb.le_fee
  have hpol := hb.policy
  have hi' : i ≠ e.n - 1 := by omega
  by_cases hpos : 0 < e.fee
  swap
  · -- no fee: nothing was paid and nothing is
    have hf0 : f = 0 := hf.1 hpos
    have hp0 : p = 0 := by omega
    subst hf0 hp0
    rw [Int.add_zero]
    refine ⟨Int.le_refl 0, Int.le_refl 0, hpfee, ?_⟩
    unfold PolicyBudget at hpol ⊢
    split
    · rename_i hfc
      rw [hfc] at hpol
      exact fun h0 => absurd h0 (zero_not_mem_of_head hpol hnd)
    · exact Int.mul_nonneg (Int.natCast_nonneg _) (tdiv_nonneg_mul_le hfee.1).1
    · have : e.fee = 0 := by omega
      rw [this, Int.zero_mul, Int.zero_mul]
  obtain ⟨pf, hpf, hfpf, hfnn, -⟩ := hf.2 hpos
  suffices h : 0 ≤ f ∧ p + f ≤ e.fee ∧ PolicyBudget e (i + 1) js (p + f) from
    ⟨h.1, by omega, h.2.1, h.2.2⟩
  unfold PolicyBudget at hpol ⊢
  unfold policyFee at hpf
  -- one case per policy, the policy replaced in the fee, the budget and the goal alike
  cases hfc : e.feePolicy with
  | firstContributor =>
    -- `FirstContributor`: what is unpaid, also from contributor 0, who comes first
    simp only [hfc] at hpol hpf ⊢
    have hpf' : pf = e.fee - p := by
      split at hpf
      · rename_i hj
        subst hj
        obtain ⟨-, hp0⟩ := hpol List.mem_cons_self
        rw [hp0, Int.sub_zero]
        exact (Except.ok.inj hpf).symm
      · exact (Except.ok.inj hpf).symm
    have hf0 := hfnn (by omega)
    exact ⟨hf0, by omega, fun h0 => absurd h0 (zero_not_mem_of_head hpol hnd)⟩
  | equalFee =>
    -- `EqualFee`: `fee / n` at every turn before the last
    simp only [hfc] at hpol hpf ⊢
    rw [if_neg hi'] at hpf
    have hpf' : pf = e.fee.tdiv e.n := (Except.ok.inj hpf).symm
    obtain ⟨hq, hnq⟩ := tdiv_nonneg_mul_le (n := e.n) hfee.1
    have hf0 := hfnn (hpf' ▸ hq)
    have hpol' : p + f ≤ ((i + 1 : Nat) : Int) * e.fee.tdiv e.n := by
      push_cast
      linarith
    have hle : ((i + 1 : Nat) : Int) * e.fee.tdiv e.n ≤ (e.n : Int) * e.fee.tdiv e.n :=
      Int.mul_le_mul_of_nonneg_right (by omega) hq
    exact ⟨hf0, by linarith, hpol'⟩
  | proportionalFee =>
    -- `ProportionalFee`: the floor share of the fee, which fits the share of the total
    simp only [hfc] at hpol hpf ⊢
    obtain ⟨s, hs, hpf⟩ := except_bind_eq_ok.1 hpf
    rw [if_neg hi'] at hpf
    have hpf' : pf = s := (Except.ok.inj hpf).symm
    subst hpf'
    obtain ⟨hamt, hamt'⟩ := he.amount j
    obtain ⟨hT, rfl⟩ := scaledShare_ok_eq hs hamt hamt' (by have := he.total_lt; omega) hfee.1
      hfee.2
    have hs0 : 0 ≤ (e.contribution j).contributedAmount * e.fee / e.totalContribution :=
      Int.ediv_nonneg (Int.mul_nonneg hamt hfee.1) (Int.le_of_lt hT)
    have hf0 := hfnn hs0
    have hsT : (e.contribution j).contributedAmount * e.fee / e.totalContribution *
        e.totalContribution ≤ (e.contribution j).contributedAmount * e.fee :=
      Int.ediv_mul_le _ (Int.ne_of_gt hT)
    have hfT : f * e.totalContribution ≤
        (e.contribution j).contributedAmount * e.fee / e.totalContribution * e.totalContribution :=
      Int.mul_le_mul_of_nonneg_right hfpf (Int.le_of_lt hT)
    have hrest : 0 ≤ (js.map fun j => (e.contribution j).contributedAmount).sum :=
      List.sum_nonneg fun x hx => by
        obtain ⟨j', -, rfl⟩ := List.mem_map.1 hx
        exact (he.amount j').1
    simp only [List.map_cons, List.sum_cons] at hpol
    have hpol' : (p + f) * e.totalContribution ≤
        e.fee * (e.totalContribution - (js.map fun j => (e.contribution j).contributedAmount).sum) := by
      linarith
    have hle : (p + f) * e.totalContribution ≤ e.fee * e.totalContribution := by
      nlinarith
    exact ⟨hf0, Int.le_of_mul_le_mul_right hle hT, hpol'⟩

/-- At the last position the fee taken is all that is unpaid.
Source: `src/validation.cpp` `CalculateNetRemunerations` (`contributionFee = fee - paidFee`)
Kind: L -/
theorem FeeBudget.last {i k : Nat} {p f : Int} (hb : FeeBudget e i [k] p) (hi : i = e.n - 1)
    (hf : FeeTaken e i k p f) : f = e.fee - p := by
  by_cases hpos : 0 < e.fee
  swap
  · have := hb.nonneg
    have := hb.le_fee
    rw [hf.1 hpos]
    omega
  obtain ⟨pf, hpf, -, -, hflast⟩ := hf.2 hpos
  rw [hflast hi]
  have hpol := hb.policy
  unfold PolicyBudget at hpol
  unfold policyFee at hpf
  split at hpf
  · rename_i hfc
    rw [hfc] at hpol
    split at hpf
    · rename_i hk
      subst hk
      obtain ⟨-, hp0⟩ := hpol List.mem_cons_self
      rw [hp0, Int.sub_zero]
      exact (Except.ok.inj hpf).symm
    · exact (Except.ok.inj hpf).symm
  · rw [if_pos hi] at hpf
    exact (Except.ok.inj hpf).symm
  · obtain ⟨s, -, hpf⟩ := except_bind_eq_ok.1 hpf
    rw [if_pos hi] at hpf
    exact (Except.ok.inj hpf).symm

end budget

/-! ## The whole loop -/

/-- Writing into a zero entry adds the written value to the sum.
Source: none: list infrastructure for the loop of `CalculateNetRemunerations`
Kind: L -/
theorem sum_set_of_getElem?_eq_zero :
    ∀ {l : List Int} {j : Nat} {x : Int}, l[j]? = some 0 → (l.set j x).sum = l.sum + x
  | [], _, _, h => by simp at h
  | a :: l, 0, x, h => by
    simp only [List.getElem?_cons_zero, Option.some.injEq] at h
    subst h
    simp only [List.set_cons_zero, List.sum_cons]
    omega
  | a :: l, j + 1, x, h => by
    simp only [List.getElem?_cons_succ] at h
    simp only [List.set_cons_succ, List.sum_cons, sum_set_of_getElem?_eq_zero h]
    omega

/-- The gross share of index `j` in a run over `pre` and then `k` from a `grossRemunerationSum`
of `gsum`: the floor share, and at `k` what is left of the funding.
Source: `src/validation.cpp` `CalculateNetRemunerations` (`// initial remuneration`)
Kind: S -/
def runGross (e : NetRemunerationEnv) (gsum : Int) (pre : List Nat) (k j : Nat) : Int :=
  if j = k then e.funding - (gsum + (pre.map (grossShare e.contributions e.stake e.subsidy)).sum)
  else grossShare e.contributions e.stake e.subsidy j

/-- An entry the loop wrote from a gross share: not dust, and below the gross share by at most
the contributor's limit.
Source: `src/validation.cpp` `CalculateNetRemunerations` (`remunerations[j] -= contributionFee`)
Kind: S -/
structure Charged (e : NetRemunerationEnv) (gross : Int) (j : Nat) (x : Int) : Prop where
  not_dust : dummyDustThreshold e.dustRelayFee ≤ x
  le_gross : x ≤ gross
  le_limit : gross - x ≤ feeLimitOf e.vote (e.contribution j)

section loop

variable {e : NetRemunerationEnv}

/-- A successful run over `pre` and a last index `k`, from zero entries and within the budget:
the sum grows by the funding less the fee, and every index visited is charged against its gross
share.
Source: `src/validation.cpp` `CalculateNetRemunerations` (the loop)
Kind: L -/
theorem remunerationLoop_spec (he : e.Valid) :
    ∀ (pre : List Nat) {k i : Nat} {st st' : RemunerationState},
    i + pre.length + 1 = e.n → (pre ++ [k]).Nodup →
    (∀ j ∈ pre ++ [k], st.remunerations[j]? = some 0) →
    FeeBudget e i (pre ++ [k]) st.paidFee →
    remunerationLoop e i (pre ++ [k]) st = .ok (some st') →
    st'.remunerations.sum =
        st.remunerations.sum - st.grossRemunerationSum + st.paidFee + e.funding - e.fee ∧
      ∀ j ∈ pre ++ [k], ∃ x, st'.remunerations[j]? = some x ∧
        Charged e (runGross e st.grossRemunerationSum pre k j) j x
  | [], k, i, st, st', hi, _, hzero, hb, h => by
    simp only [List.nil_append, remunerationLoop] at h hzero hb
    obtain ⟨o, hstep, h⟩ := except_bind_eq_ok.1 h
    rcases o with _ | st₁
    · cases h
    simp only [Except.ok.injEq, Option.some.injEq] at h
    subst h
    obtain ⟨remuneration, gsum, f, hinit, rfl, hfL, hnet, hf⟩ := remunerationStep_spec he hstep
    have hlast : i = e.n - 1 := by simp at hi; omega
    rw [initialRemuneration_of_ge _ _ (by omega)] at hinit
    obtain ⟨rfl, rfl⟩ := Prod.mk.inj (Except.ok.inj hinit)
    -- the last turn pays all that is unpaid
    have hfeq : f = e.fee - st.paidFee := FeeBudget.last hb hlast hf
    have h0 : st.remunerations[k]? = some 0 := hzero k List.mem_cons_self
    have hlen : k < st.remunerations.length := (List.getElem?_eq_some_iff.1 h0).1
    refine ⟨?_, ?_⟩
    · rw [sum_set_of_getElem?_eq_zero h0]
      omega
    · intro j hj
      simp only [List.nil_append, List.mem_singleton] at hj
      subst hj
      refine ⟨_, List.getElem?_set_self hlen, hnet, ?_, ?_⟩
      · have := hb.le_fee
        simp only [runGross, if_true, List.map_nil, List.sum_nil, Int.add_zero]
        omega
      · simp only [runGross, if_true, List.map_nil, List.sum_nil, Int.add_zero]
        omega
  | j :: pre, k, i, st, st', hi, hnd, hzero, hb, h => by
    simp only [List.cons_append, remunerationLoop] at h hzero hb hnd
    obtain ⟨o, hstep, h⟩ := except_bind_eq_ok.1 h
    rcases o with _ | st₁
    · cases h
    obtain ⟨remuneration, gsum, f, hinit, rfl, hfL, hnet, hf⟩ := remunerationStep_spec he hstep
    have hlt : i < e.n - 1 := by simp at hi; omega
    obtain ⟨hrem, rfl⟩ := initialRemuneration_of_lt_ok he hlt hinit
    obtain ⟨hf0, hb'⟩ := FeeBudget.step he hb hnd hlt hf
    have hj := (List.nodup_cons.1 hnd).1
    have h0 : st.remunerations[j]? = some 0 := hzero j List.mem_cons_self
    have hlen : j < st.remunerations.length := (List.getElem?_eq_some_iff.1 h0).1
    -- the later turns see zeros where they write, as this one wrote elsewhere
    have hzero' : ∀ j' ∈ pre ++ [k],
        (st.remunerations.set j (remuneration - f))[j']? = some 0 := by
      intro j' hj'
      rw [List.getElem?_set_ne (fun h' => hj (by rw [h']; exact hj')),
        hzero j' (List.mem_cons_of_mem j hj')]
    obtain ⟨hsum, hval⟩ := remunerationLoop_spec he pre (by simp at hi ⊢; omega)
      (List.nodup_cons.1 hnd).2 hzero' hb' h
    dsimp only at hsum
    refine ⟨?_, ?_⟩
    · rw [hsum, sum_set_of_getElem?_eq_zero h0]
      omega
    · intro j' hj'
      rcases List.mem_cons.1 hj' with rfl | hj'
      · -- the index of this turn, which no later turn writes
        have hjk : j' ≠ k := fun h' => hj (h' ▸ List.mem_append_right pre List.mem_cons_self)
        refine ⟨remuneration - f, ?_, hnet, ?_, ?_⟩
        · rw [(remunerationLoop_frame h).2 j' hj, List.getElem?_set_self hlen]
        · rw [runGross, if_neg hjk, ← hrem]
          omega
        · rw [runGross, if_neg hjk, ← hrem]
          omega
      · obtain ⟨x, hx, hc⟩ := hval j' hj'
        have hgross : runGross e (st.grossRemunerationSum + remuneration) pre k j' =
            runGross e st.grossRemunerationSum (j :: pre) k j' := by
          simp only [runGross, List.map_cons, List.sum_cons, hrem]
          split_ifs <;> omega
        exact ⟨x, hx, hgross ▸ hc⟩

end loop

/-! ## The result with a fee -/

/-- Over a permutation of the indexes, the amounts sum to `totalContribution`.
Source: `src/validation.cpp` `CalculateNetRemunerations` (`totalContribution`)
Kind: L -/
theorem sum_amounts_of_perm_range {contributions : List TicketContribData} {σ : List Nat}
    (hσ : σ.Perm (List.range contributions.length)) :
    (σ.map fun j => (contributions.getD j default).contributedAmount).sum =
      totalContribution contributions := by
  rw [(hσ.map _).sum_eq, totalContribution]
  congr 1
  apply List.ext_getElem (by simp)
  intro i h₁ h₂
  simp only [List.getElem_map, List.getElem_range]
  rw [List.getD_eq_getElem _ _ (by simpa using h₁)]

/-- The floors of an order's indexes before its last are all the floors but the last one's.
Source: none: list infrastructure for the loop of `CalculateNetRemunerations`
Kind: L -/
theorem sum_pre_add_last {n k : Nat} {pre : List Nat} (g : Nat → Int)
    (hσ : (pre ++ [k]).Perm (List.range n)) :
    (pre.map g).sum + g k = ((List.range n).map g).sum := by
  rw [← (hσ.map g).sum_eq]
  simp

/-- The gross shares of a run from position 0 are `floorSharesWithRemainder`.
Source: `src/validation.cpp` `CalculateNetRemunerations` (`// initial remuneration`)
Kind: L -/
theorem runGross_eq_floorShares {e : NetRemunerationEnv} {pre : List Nat} {k j : Nat}
    (hσ : (pre ++ [k]).Perm (List.range e.n)) (hj : j < e.n) :
    runGross e 0 pre k j = (floorSharesWithRemainder e.contributions e.stake e.subsidy k).getD j 0 := by
  have hsum := sum_pre_add_last (grossShare e.contributions e.stake e.subsidy) hσ
  rw [floorSharesWithRemainder, List.getD_eq_getElem?_getD, List.getElem?_map,
    List.getElem?_range (show j < e.contributions.length from hj)]
  simp only [runGross, Option.map_some, Option.getD_some, NetRemunerationEnv.funding, Int.zero_add]
  split_ifs with hjk
  · subst hjk
    simp only [NetRemunerationEnv.n] at hsum
    omega
  · rfl

/-- An order of nonempty indexes has a last one.
Source: none: list infrastructure for the loop of `CalculateNetRemunerations`
Kind: L -/
theorem exists_getLast?_of_perm_range {σ : List Nat} {n : Nat} (hσ : σ.Perm (List.range n))
    (hn : n ≠ 0) : ∃ k, σ.getLast? = some k := by
  cases hlast : σ.getLast? with
  | some k => exact ⟨k, rfl⟩
  | none =>
    rw [List.getLast?_eq_none_iff] at hlast
    rw [hlast, List.nil_perm, List.range_eq_nil] at hσ
    exact absurd hσ hn

/-- A run of `CalculateNetRemunerations` with an entry for every contribution pays the funding
less the fee, in entries that are not dust, each charged between nothing and its contributor's
fee limit against the floor shares with the loss on the last of the sort.
Source: `src/validation.cpp` `CalculateNetRemunerations`
Kind: L -/
theorem calculateNetRemunerations_charges {sort : StdSort} (hsort : StdSortContract sort)
    {dustRelayFee : CFeeRate} (hrate : 0 ≤ dustRelayFee.nSatoshisPerK)
    {contributions : List TicketContribData} {stake subsidy fee : Int}
    {feePolicy : FeeDistributionPolicy} {v : List Int} (hne : contributions ≠ [])
    (htotal : totalContribution contributions < 2 ^ 63)
    (h : calculateNetRemunerations sort dustRelayFee contributions stake subsidy fee feePolicy =
      .ok v)
    (hlen : v.length = contributions.length) :
    v.sum = stake + subsidy - fee ∧
      (∀ x ∈ v, 0 ≤ x ∧ isDust ⟨x, dummyScript⟩ dustRelayFee = false) ∧
      ∃ k, (sortIndexes sort contributions (decide (0 < subsidy)) feePolicy).getLast? = some k ∧
        ∀ j < contributions.length,
          0 ≤ (floorSharesWithRemainder contributions stake subsidy k).getD j 0 - v.getD j 0 ∧
          (floorSharesWithRemainder contributions stake subsidy k).getD j 0 - v.getD j 0 ≤
            feeLimitOf (decide (0 < subsidy)) (contributions.getD j default) := by
  have hn : contributions.length ≠ 0 := fun h' => hne (List.length_eq_zero_iff.1 h')
  have hv : v ≠ [] := fun h' => hn (by rw [← hlen, h', List.length_nil])
  obtain ⟨-, hstake, hsub, hfee, hall, st', hloop, rfl⟩ := netRemunerationsWithOrder_inv h hv
  obtain ⟨hσ, hfirst, -⟩ := sortIndexes_admissible hsort hne (decide (0 < subsidy)) feePolicy
  obtain ⟨k, hk⟩ := exists_getLast?_of_perm_range hσ hn
  obtain ⟨pre, hpre⟩ := List.getLast?_eq_some_iff.1 hk
  rw [hpre] at hloop hσ hfirst
  let e : NetRemunerationEnv :=
    ⟨contributions, stake, subsidy, fee, feePolicy, dustRelayFee, totalContribution contributions⟩
  have he : e.Valid := ⟨hstake, hsub, hfee, hall, rfl, htotal, hrate⟩
  have hnd : (pre ++ [k]).Nodup := hσ.nodup_iff.2 List.nodup_range
  have hmem : ∀ j, j ∈ pre ++ [k] ↔ j < contributions.length := fun j => by
    rw [hσ.mem_iff, List.mem_range]
  have hzero : ∀ j ∈ pre ++ [k], (List.replicate contributions.length (0 : Int))[j]? = some 0 :=
    fun j hj => by rw [List.getElem?_replicate, if_pos ((hmem j).1 hj)]
  -- nothing is paid yet; under `FirstContributor` contributor 0 comes first
  have hb : FeeBudget e 0 (pre ++ [k]) 0 := by
    refine ⟨Int.le_refl 0, he.fee_bounds.1, ?_⟩
    unfold PolicyBudget
    split
    · rename_i hfc
      intro _
      have hfc' : feePolicy = .firstContributor := hfc
      simp only [hfc', if_true] at hfirst
      have h1 := congrArg List.head? hfirst
      rw [List.head?_take, List.head?_take, List.head?_range, if_neg hn] at h1
      exact ⟨by simpa using h1, rfl⟩
    · simp
    · have hT : ((pre ++ [k]).map fun j => (e.contribution j).contributedAmount).sum =
          totalContribution contributions := sum_amounts_of_perm_range hσ
      rw [hT, Int.sub_self, Int.mul_zero, Int.zero_mul]
  have hlen' := hσ.length_eq
  simp only [List.length_append, List.length_singleton, List.length_range] at hlen'
  obtain ⟨hsum, hval⟩ := remunerationLoop_spec he pre (by simp [NetRemunerationEnv.n]; omega) hnd
    hzero hb hloop
  dsimp only at hsum hval
  have hD := he.dust_nonneg
  have hfunding : e.funding - e.fee = stake + subsidy - fee := rfl
  refine ⟨?_, ?_, k, hk, ?_⟩
  · rw [hsum]
    simp only [List.sum_replicate_int, Int.mul_zero, Int.sub_zero, Int.add_zero, Int.zero_add]
    omega
  · intro x hx
    obtain ⟨j, hj, rfl⟩ := List.getElem_of_mem hx
    have hjn : j < contributions.length := by
      rwa [(remunerationLoop_frame hloop).1, List.length_replicate] at hj
    obtain ⟨x, hx', hc⟩ := hval j ((hmem j).2 hjn)
    rw [List.getElem?_eq_getElem hj, Option.some.injEq] at hx'
    rw [hx']
    exact ⟨Int.le_trans hD hc.not_dust, isDust_dummyScript_eq_false.2 hc.not_dust⟩
  · intro j hj
    obtain ⟨x, hx, hc⟩ := hval j ((hmem j).2 hj)
    have hgross := runGross_eq_floorShares (e := e) hσ hj
    have hvj : st'.remunerations.getD j 0 = x := by
      rw [List.getD_eq_getElem?_getD, hx, Option.getD_some]
    rw [hvj, ← hgross]
    exact ⟨by have := hc.le_gross; omega, hc.le_limit⟩

/-- With a conforming sort, the node's fee rate and a `totalContribution` within `CAmount`,
`CalculateNetRemunerations` that returns an entry for every contribution pays out the funding
less the fee, in entries that are not dust, and charges each contributor between nothing and its
fee limit against its gross share: the floor share, and for the one the sort leaves last also the
rounding loss.
Source: `src/validation.cpp` `CalculateNetRemunerations`, `CalculateGrossRemuneration`
Kind: T -/
theorem calculateNetRemunerations_conserves {sort : StdSort} (hsort : StdSortContract sort)
    {dustRelayFee : CFeeRate} (hrate : 0 ≤ dustRelayFee.nSatoshisPerK)
    {contributions : List TicketContribData} {stake subsidy fee : Int}
    {feePolicy : FeeDistributionPolicy} {v : List Int} (hne : contributions ≠ [])
    (htotal : totalContribution contributions < 2 ^ 63)
    (h : calculateNetRemunerations sort dustRelayFee contributions stake subsidy fee feePolicy =
      .ok v)
    (hlen : v.length = contributions.length) :
    v.sum = stake + subsidy - fee ∧
      (∀ x ∈ v, 0 ≤ x ∧ isDust ⟨x, dummyScript⟩ dustRelayFee = false) ∧
      ∃ k, (sortIndexes sort contributions (decide (0 < subsidy)) feePolicy).getLast? = some k ∧
        ∀ j < contributions.length,
          0 ≤ (floorSharesWithRemainder contributions stake subsidy k).getD j 0 - v.getD j 0 ∧
          (floorSharesWithRemainder contributions stake subsidy k).getD j 0 - v.getD j 0 ≤
            feeLimitOf (decide (0 < subsidy)) (contributions.getD j default) :=
  calculateNetRemunerations_charges hsort hrate hne htotal h hlen

/-- Contributors of one and two coins, with vote fee limits of 1000 and 10^6 satoshis, vote on a
3-coin ticket with a subsidy of 0.1 coin and pay a fee of 3000 satoshis in proportion: the first
pays 1000, its whole limit, and the second, last in sorted order, the other 2000 and receives the
satoshi the floors lose.
Kind: W -/
theorem calculateNetRemunerations_conserves_two_contributors :
    let c₀ : TicketContribData := ⟨1, List.replicate 20 0, 1, 100000000, 1000, 0, rfl, rfl, rfl⟩
    let c₁ : TicketContribData :=
      ⟨1, List.replicate 20 0, 1, 200000000, 1000000, 0, rfl, rfl, rfl⟩
    let v : List Int := [103332333, 206664667]
    0 ≤ defaultDustRelayFee.nSatoshisPerK ∧ [c₀, c₁] ≠ [] ∧
    totalContribution [c₀, c₁] < 2 ^ 63 ∧
    calculateNetRemunerations insertionSortIndexes defaultDustRelayFee [c₀, c₁] 300000000 10000000
      3000 .proportionalFee = .ok v ∧
    (v.sum = 300000000 + 10000000 - 3000 ∧
      (∀ x ∈ v, 0 ≤ x ∧ isDust ⟨x, dummyScript⟩ defaultDustRelayFee = false) ∧
      ∃ k, (sortIndexes insertionSortIndexes [c₀, c₁] (decide (0 < (10000000 : Int)))
          .proportionalFee).getLast? = some k ∧
        ∀ j < [c₀, c₁].length,
          0 ≤ (floorSharesWithRemainder [c₀, c₁] 300000000 10000000 k).getD j 0 - v.getD j 0 ∧
          (floorSharesWithRemainder [c₀, c₁] 300000000 10000000 k).getD j 0 - v.getD j 0 ≤
            feeLimitOf (decide (0 < (10000000 : Int))) ([c₀, c₁].getD j default)) := by
  intro c₀ c₁ v
  have hne : [c₀, c₁] ≠ [] := List.cons_ne_nil _ _
  have h : calculateNetRemunerations insertionSortIndexes defaultDustRelayFee [c₀, c₁] 300000000
      10000000 3000 .proportionalFee = .ok v := by decide
  exact ⟨by decide, hne, by decide, h,
    calculateNetRemunerations_conserves insertionSortIndexes_contract (by decide) hne (by decide) h
      rfl⟩

end BwsCoin.Stake
