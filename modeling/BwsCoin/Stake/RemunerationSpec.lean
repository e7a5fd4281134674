import BwsCoin.Stake.Remuneration
import Mathlib.Algebra.Order.BigOperators.Group.List
import Mathlib.Algebra.Order.Group.Int
import Mathlib.Data.List.Sort

/-!
# What `CalculateNetRemunerations` pays without a fee

Consensus calls `CalculateNetRemunerations` with no fee (`checkVoteOrRevokeTicketInputs`), and
then the loop only sets remunerations and tests them. This module computes its result:

* the 256-bit fixed-point share is the floor of the exact share (`scaledShare_eq`), so every
  contributor but the last in sorted order gets `amount * funding / total`;
* the last gets the funding minus the others' floors, that is its own floor plus the whole
  rounding loss (`netRemunerationsWithOrder_of_fee_zero`);
* the fee rate enters only through the test, so another `::dustRelayFee` either leaves the result
  unchanged or rejects it (`remunerationLoop_withDustRelayFee`).

Which contributor is last is up to `std::sort` when fee limits tie: two such orders give different
vectors exactly when the floors lose something (`remunerations_depend_on_tie_order`).
-/

namespace BwsCoin.Stake

open Script BwsCoin.Pow Policy

/-! ## The fixed-point share is the floor share -/

/-- `uint64_t` of an amount that fits is the amount.
Source: none: the C++ conversion
Kind: L -/
theorem uint64Of_of_lt {x : Int} (h0 : 0 ≤ x) (h : x < 2 ^ 64) : uint64Of x = x.toNat := by
  unfold uint64Of
  rw [Int.emod_eq_of_lt h0 h]

/-- With operands that fit `uint64_t` and a share that fits `CAmount`, the 256-bit computation
neither overflows nor rounds twice: it is the floor of `a * b / d`.
Source: `src/validation.cpp` `CalculateGrossRemuneration` (the formula in its comment)
Kind: L -/
theorem scaledShare_eq {a b d : Int} (ha : 0 ≤ a) (ha' : a < 2 ^ 64) (hb : 0 ≤ b)
    (hb' : b < 2 ^ 64) (hd : 0 < d) (hd' : d < 2 ^ 64) (hq : a * b / d < 2 ^ 63) :
    scaledShare a b d = .ok (a * b / d) := by
  obtain ⟨A, rfl⟩ := Int.eq_ofNat_of_zero_le ha
  obtain ⟨B, rfl⟩ := Int.eq_ofNat_of_zero_le hb
  obtain ⟨D, rfl⟩ := Int.eq_ofNat_of_zero_le hd.le
  have hA : A < 2 ^ 64 := by exact_mod_cast ha'
  have hB : B < 2 ^ 64 := by exact_mod_cast hb'
  have hD : D < 2 ^ 64 := by exact_mod_cast hd'
  have hD0 : 0 < D := by exact_mod_cast hd
  have hAB : A * B < 2 ^ 128 := by
    calc A * B < 2 ^ 64 * 2 ^ 64 := Nat.mul_lt_mul'' hA hB
      _ = 2 ^ 128 := (Nat.pow_add 2 64 64).symm
  -- the shifted product stays below 2^160
  have hprod : ((BitVec.ofNat 256 A * BitVec.ofNat 256 B) <<< 32).toNat = A * B * 2 ^ 32 := by
    rw [BitVec.toNat_shiftLeft, BitVec.toNat_mul, BitVec.toNat_ofNat, BitVec.toNat_ofNat,
      Nat.mod_eq_of_lt (by omega : A < 2 ^ 256), Nat.mod_eq_of_lt (by omega : B < 2 ^ 256),
      Nat.mod_eq_of_lt (by omega : A * B < 2 ^ 256), Nat.shiftLeft_eq]
    exact Nat.mod_eq_of_lt (by omega)
  have hDv : BitVec.ofNat 256 D ≠ 0 := by
    intro h
    have := congrArg BitVec.toNat h
    rw [BitVec.toNat_ofNat, Nat.mod_eq_of_lt (by omega)] at this
    simp at this
    omega
  have hquot : ((((BitVec.ofNat 256 A * BitVec.ofNat 256 B) <<< 32) / BitVec.ofNat 256 D) >>>
      32).toNat = A * B / D := by
    rw [BitVec.toNat_ushiftRight, BitVec.toNat_udiv, hprod, BitVec.toNat_ofNat,
      Nat.mod_eq_of_lt (by omega : D < 2 ^ 256), Nat.shiftRight_eq_div_pow,
      Nat.div_div_eq_div_mul, Nat.mul_div_mul_right _ _ (Nat.two_pow_pos 32)]
  have hq' : A * B / D < 2 ^ 63 := by exact_mod_cast hq
  simp only [scaledShare, uint64Of_of_lt ha ha', uint64Of_of_lt hb hb', uint64Of_of_lt hd.le hd',
    Int.toNat_natCast, div256_of_ne_zero hDv, except_ok_bind, hquot]
  rw [Nat.mod_eq_of_lt (by omega), int64Of, if_pos hq']
  push_cast
  rfl

/-- `CalculateGrossRemuneration` is the floor of the contributor's share of the funding.
Source: `src/validation.cpp` `CalculateGrossRemuneration`
Kind: L -/
theorem calculateGrossRemuneration_eq {a stake subsidy total : Int} (ha : 0 ≤ a)
    (hat : a ≤ total) (htotal : total < 2 ^ 64) (hpos : 0 < total) (hF : 0 ≤ stake + subsidy)
    (hF' : stake + subsidy < 2 ^ 63) :
    calculateGrossRemuneration a stake subsidy total = .ok (a * (stake + subsidy) / total) := by
  -- the share of a part of the total is at most the funding
  have hle : a * (stake + subsidy) / total ≤ stake + subsidy := by
    apply Int.ediv_le_of_le_mul hpos
    calc a * (stake + subsidy) ≤ total * (stake + subsidy) := Int.mul_le_mul_of_nonneg_right hat hF
      _ = (stake + subsidy) * total := Int.mul_comm _ _
  exact scaledShare_eq ha (by omega) hF (by omega) hpos htotal (by omega)

/-! ## One turn of the loop -/

section loop

variable {e : NetRemunerationEnv}

/-- A turn that goes on writes only the remuneration at its index.
Source: `src/validation.cpp` `CalculateNetRemunerations` (the loop body)
Kind: L -/
theorem remunerationStep_set {i j : Nat} {st st' : RemunerationState}
    (h : remunerationStep e i j st = .ok (some st')) :
    ∃ v, st'.remunerations = st.remunerations.set j v := by
  unfold remunerationStep at h
  obtain ⟨⟨remuneration, gsum⟩, -, h⟩ := except_bind_eq_ok.1 h
  by_cases hadm : remunerationAdmissible e.dustRelayFee remuneration
  · by_cases hfee : e.fee > 0
    · -- the fee branch writes the net remuneration
      simp only [hadm, hfee, not_true_eq_false, if_false, if_true] at h
      obtain ⟨o, -, h⟩ := except_bind_eq_ok.1 h
      rcases o with _ | ⟨net, paidFee⟩
      · cases h
      · cases h
        exact ⟨net, rfl⟩
    · simp only [hadm, hfee, not_true_eq_false, if_false, Except.ok.injEq, Option.some.injEq] at h
      subst h
      exact ⟨remuneration, rfl⟩
  · simp [hadm] at h

/-- Without a fee, a turn computes the initial remuneration and goes on exactly when it passes the
money-range and dust test.
Source: `src/validation.cpp` `CalculateNetRemunerations` (the loop body, `fee > 0` false)
Kind: L -/
theorem remunerationStep_of_fee_zero (hfee : e.fee = 0) (i j : Nat) (st : RemunerationState) :
    remunerationStep e i j st =
      initialRemuneration e i (e.contribution j) st.grossRemunerationSum >>= fun p =>
        .ok (if remunerationAdmissible e.dustRelayFee p.1 then
          some ⟨st.remunerations.set j p.1, st.paidFee, p.2⟩ else none) := by
  unfold remunerationStep
  dsimp only
  congr 1
  funext p
  obtain ⟨remuneration, gsum⟩ := p
  by_cases hadm : remunerationAdmissible e.dustRelayFee remuneration <;> simp [hadm, hfee]

/-- The initial remuneration before the last position.
Source: `src/validation.cpp` `CalculateNetRemunerations` (`i < indexes.size() - 1`)
Kind: L -/
theorem initialRemuneration_of_lt {i : Nat} {c : TicketContribData} {g gsum : Int}
    (hi : i < e.n - 1)
    (hg : calculateGrossRemuneration c.contributedAmount e.stake e.subsidy e.totalContribution =
      .ok g) :
    initialRemuneration e i c gsum = .ok (g, gsum + g) := by
  simp [initialRemuneration, hi, hg]

/-- The initial remuneration at the last position.
Source: `src/validation.cpp` `CalculateNetRemunerations` (`remunerations[j] = funding - ...`)
Kind: L -/
theorem initialRemuneration_of_ge {i : Nat} (c : TicketContribData) (gsum : Int)
    (hi : ¬ i < e.n - 1) :
    initialRemuneration e i c gsum = .ok (e.funding - gsum, gsum) := by
  simp [initialRemuneration, hi]

/-! ## The whole loop -/

/-- The loop keeps the length of `remunerations` and leaves alone every index it does not visit.
Source: `src/validation.cpp` `CalculateNetRemunerations` (the loop)
Kind: L -/
theorem remunerationLoop_frame : ∀ {js : List Nat} {i : Nat} {st st' : RemunerationState},
    remunerationLoop e i js st = .ok (some st') →
    st'.remunerations.length = st.remunerations.length ∧
      ∀ k ∉ js, st'.remunerations[k]? = st.remunerations[k]?
  | [], _, st, st', h => by
    simp only [remunerationLoop, Except.ok.injEq, Option.some.injEq] at h
    subst h
    exact ⟨rfl, fun _ _ => rfl⟩
  | j :: js, i, st, st', h => by
    simp only [remunerationLoop] at h
    obtain ⟨o, hstep, h⟩ := except_bind_eq_ok.1 h
    rcases o with _ | st₁
    · cases h
    · obtain ⟨v, hv⟩ := remunerationStep_set hstep
      obtain ⟨hlen, hframe⟩ := remunerationLoop_frame h
      refine ⟨by rw [hlen, hv, List.length_set], fun k hk => ?_⟩
      have hkj : j ≠ k := fun h' => hk (h' ▸ List.mem_cons_self)
      rw [hframe k (fun h' => hk (List.mem_cons_of_mem j h')), hv, List.getElem?_set_ne hkj]

/-- Without a fee, running the loop at another fee rate gives the same state or rejects: the
rate is read only by the test each remuneration passed.
Source: `src/validation.cpp` `CalculateNetRemunerations` (`IsDust(.., ::dustRelayFee)`)
Kind: L -/
theorem remunerationLoop_withDustRelayFee (hfee : e.fee = 0) (r : CFeeRate) :
    ∀ {js : List Nat} {i : Nat} {st st' : RemunerationState}, js.Nodup →
    (∀ j ∈ js, j < st.remunerations.length) →
    remunerationLoop e i js st = .ok (some st') →
    remunerationLoop { e with dustRelayFee := r } i js st =
      .ok (if js.all (fun j => remunerationAdmissible r (st'.remunerations.getD j 0)) then some st'
        else none)
  | [], _, st, st', _, _, h => by
    simp only [remunerationLoop, Except.ok.injEq, Option.some.injEq] at h
    subst h
    simp [remunerationLoop]
  | j :: js, i, st, st', hnd, hlt, h => by
    obtain ⟨hj, hnd⟩ := List.nodup_cons.1 hnd
    simp only [remunerationLoop] at h ⊢
    obtain ⟨o, hstep, h⟩ := except_bind_eq_ok.1 h
    rw [remunerationStep_of_fee_zero hfee] at hstep
    obtain ⟨⟨remuneration, gsum⟩, hinit, hstep⟩ := except_bind_eq_ok.1 hstep
    by_cases hadm : remunerationAdmissible e.dustRelayFee remuneration
    · simp only [hadm, if_true, Except.ok.injEq] at hstep
      subst hstep
      -- the turn at `j` wrote `remuneration`, and no later turn writes `j` again
      have hlen : j < st.remunerations.length := hlt j List.mem_cons_self
      have hlt₁ : ∀ k ∈ js, k < (st.remunerations.set j remuneration).length := by
        intro k hk
        rw [List.length_set]
        exact hlt k (List.mem_cons_of_mem j hk)
      have hval : st'.remunerations.getD j 0 = remuneration := by
        rw [List.getD_eq_getElem?_getD, (remunerationLoop_frame h).2 j hj,
          List.getElem?_set_self hlen]
        rfl
      have ih := remunerationLoop_withDustRelayFee hfee r hnd hlt₁ h
      -- the initial remuneration does not read the fee rate
      have hinit' : initialRemuneration { e with dustRelayFee := r } i
          ({ e with dustRelayFee := r }.contribution j) st.grossRemunerationSum =
          .ok (remuneration, gsum) := hinit
      rw [remunerationStep_of_fee_zero (e := { e with dustRelayFee := r }) hfee, hinit']
      by_cases hadm' : remunerationAdmissible r remuneration
      · simp only [except_ok_bind, hadm', if_true]
        rw [ih, List.all_cons, hval, hadm', Bool.true_and]
      · have hfalse : remunerationAdmissible r remuneration = false := Bool.eq_false_iff.2 hadm'
        simp only [except_ok_bind, hfalse, Bool.false_eq_true, if_false]
        rw [List.all_cons, hval, hfalse, Bool.false_and]
        rfl
    · simp [hadm] at hstep
      subst hstep
      cases h

/-- Without a fee, and with every floor share computed as `g`, a successful run over `pre` and
then a last index `k` writes `g j` at every `j` of `pre` and at `k` the funding minus the floors
of `pre`.
Source: `src/validation.cpp` `CalculateNetRemunerations` (the loop)
Kind: L -/
theorem remunerationLoop_of_fee_zero (hfee : e.fee = 0) {g : Nat → Int}
    (hg : ∀ j, calculateGrossRemuneration (e.contribution j).contributedAmount e.stake e.subsidy
      e.totalContribution = .ok (g j)) :
    ∀ (pre : List Nat) {k i : Nat} {st st' : RemunerationState}, i + pre.length + 1 = e.n →
    remunerationLoop e i (pre ++ [k]) st = .ok (some st') →
    st'.remunerations = (pre.foldl (fun v j => v.set j (g j)) st.remunerations).set k
      (e.funding - (st.grossRemunerationSum + (pre.map g).sum))
  | [], k, i, st, st', hi, h => by
    simp only [List.nil_append, remunerationLoop] at h
    obtain ⟨o, hstep, h⟩ := except_bind_eq_ok.1 h
    rw [remunerationStep_of_fee_zero hfee,
      initialRemuneration_of_ge _ _ (by simp at hi; omega)] at hstep
    simp only [except_ok_bind, Except.ok.injEq] at hstep
    subst hstep
    split_ifs at h
    · simp only [Except.ok.injEq, Option.some.injEq] at h
      subst h
      simp
    · cases h
  | j :: pre, k, i, st, st', hi, h => by
    simp only [List.cons_append, remunerationLoop] at h
    obtain ⟨o, hstep, h⟩ := except_bind_eq_ok.1 h
    rw [remunerationStep_of_fee_zero hfee,
      initialRemuneration_of_lt (by simp at hi; omega) (hg j)] at hstep
    simp only [except_ok_bind, Except.ok.injEq] at hstep
    subst hstep
    split_ifs at h
    · have ih := remunerationLoop_of_fee_zero hfee hg pre (by simp at hi ⊢; omega) h
      rw [ih]
      simp [Int.add_assoc]
    · cases h

end loop

/-- Reading the vector after the floors of `pre` are written: `g x` where `x` is in `pre` and in
range, the old entry elsewhere.
Source: none: list infrastructure for the loop of `CalculateNetRemunerations`
Kind: L -/
theorem getElem?_foldl_set (g : Nat → Int) :
    ∀ (pre : List Nat) (v : List Int) (x : Nat),
    (pre.foldl (fun v j => v.set j (g j)) v)[x]? =
      if x ∈ pre ∧ x < v.length then some (g x) else v[x]?
  | [], v, x => by simp
  | j :: pre, v, x => by
    rw [List.foldl_cons, getElem?_foldl_set g pre, List.length_set, List.getElem?_set]
    by_cases hx : x ∈ pre ∧ x < v.length
    · simp [hx]
    · by_cases hjx : j = x
      · subst hjx
        by_cases hlen : j < v.length <;> simp [hlen]
      · simp [hx, hjx, Ne.symm hjx]

/-- Writing the floors keeps the length of the vector.
Source: none: list infrastructure for the loop of `CalculateNetRemunerations`
Kind: L -/
theorem length_foldl_set (g : Nat → Int) :
    ∀ (pre : List Nat) (v : List Int), (pre.foldl (fun v j => v.set j (g j)) v).length = v.length
  | [], _ => rfl
  | j :: pre, v => by rw [List.foldl_cons, length_foldl_set g pre, List.length_set]

/-! ## The result without a fee -/

/-- The floor of contributor `j`'s share of the funding: what `CalculateGrossRemuneration`
computes for it (`calculateGrossRemuneration_eq`).
Source: `src/validation.cpp` `CalculateGrossRemuneration` (the formula in its comment)
Kind: S -/
def grossShare (contributions : List TicketContribData) (stake subsidy : Int) (j : Nat) : Int :=
  (contributions.getD j default).contributedAmount * (stake + subsidy) /
    totalContribution contributions

/-- The remunerations without a fee when `k` is last in sorted order: everyone's floor share, and
for `k` also the rounding loss, the funding minus the sum of all floors.
Source: `src/validation.cpp` `CalculateNetRemunerations` (the comment on rounding errors)
Kind: S -/
def floorSharesWithRemainder (contributions : List TicketContribData) (stake subsidy : Int)
    (k : Nat) : List Int :=
  let g := grossShare contributions stake subsidy
  let loss := stake + subsidy - ((List.range contributions.length).map g).sum
  (List.range contributions.length).map fun j => if j = k then g j + loss else g j

/-- Every contribution a run accepts is at most the total.
Source: `src/validation.cpp` `CalculateNetRemunerations` (`totalContribution`)
Kind: L -/
theorem contributedAmount_le_total {contributions : List TicketContribData}
    (hall : contributions.all (fun c => moneyRange c.contributedAmount) = true) (j : Nat) :
    0 ≤ (contributions.getD j default).contributedAmount ∧
      (contributions.getD j default).contributedAmount ≤ totalContribution contributions := by
  have hnn : ∀ x ∈ contributions.map TicketContribData.contributedAmount, 0 ≤ x := by
    intro x hx
    obtain ⟨c, hc, rfl⟩ := List.mem_map.1 hx
    exact (moneyRange_iff.1 (List.all_eq_true.1 hall c hc)).1
  by_cases hj : j < contributions.length
  · have hmem : (contributions.getD j default).contributedAmount ∈
        contributions.map TicketContribData.contributedAmount := by
      rw [List.getD_eq_getElem _ _ hj]
      exact List.mem_map_of_mem (List.getElem_mem hj)
    exact ⟨hnn _ hmem, List.single_le_sum hnn _ hmem⟩
  · rw [List.getD_eq_default _ _ (by omega)]
    exact ⟨le_refl 0, List.sum_nonneg hnn⟩

section run

variable {dustRelayFee : CFeeRate} {contributions : List TicketContribData}
  {stake subsidy fee : Int} {feePolicy : FeeDistributionPolicy} {σ : List Nat}

/-- Past its preconditions, `netRemunerationsWithOrder` is the loop from position 0 over a
vector of zeros, and `{}` where the loop returns early.
Source: `src/validation.cpp` `CalculateNetRemunerations`
Kind: L -/
theorem netRemunerationsWithOrder_eq_loop (hn : contributions ≠ []) (hstake : moneyRange stake)
    (hsub : moneyRange subsidy) (hfee : moneyRange fee)
    (hall : contributions.all (fun c => moneyRange c.contributedAmount)) :
    netRemunerationsWithOrder dustRelayFee contributions stake subsidy fee feePolicy σ =
      remunerationLoop ⟨contributions, stake, subsidy, fee, feePolicy, dustRelayFee,
          totalContribution contributions⟩ 0 σ ⟨List.replicate contributions.length 0, 0, 0⟩ >>=
        fun o => .ok ((o.map RemunerationState.remunerations).getD []) := by
  have hpre : ¬ (contributions.length = 0 ∨ ¬ moneyRange stake = true ∨
      ¬ moneyRange subsidy = true ∨ ¬ moneyRange fee = true) := by
    simp [List.length_eq_zero_iff, hn, hstake, hsub, hfee]
  unfold netRemunerationsWithOrder
  rw [if_neg hpre, if_neg (not_not.2 hall)]
  dsimp only
  congr 1
  funext o
  cases o <;> rfl

/-- A contribution whose amount is outside `MoneyRange` makes `netRemunerationsWithOrder` return
`{}`, whatever the other arguments.
Source: `src/validation.cpp` `CalculateNetRemunerations` (the contribution check)
Kind: L -/
theorem netRemunerationsWithOrder_of_not_moneyRange {c : TicketContribData}
    (hc : c ∈ contributions) (hbad : moneyRange c.contributedAmount = false) :
    netRemunerationsWithOrder dustRelayFee contributions stake subsidy fee feePolicy σ = .ok [] := by
  have hall : ¬ (contributions.all fun c => moneyRange c.contributedAmount) = true := by
    intro h
    have := List.all_eq_true.1 h c hc
    rw [hbad] at this
    cases this
  unfold netRemunerationsWithOrder
  rw [if_pos hall, ite_self]

/-- A nonempty result of `netRemunerationsWithOrder` passed the preconditions and is the vector
a successful loop left.
Source: `src/validation.cpp` `CalculateNetRemunerations`
Kind: L -/
theorem netRemunerationsWithOrder_inv {r : List Int}
    (h : netRemunerationsWithOrder dustRelayFee contributions stake subsidy fee feePolicy σ = .ok r)
    (hr : r ≠ []) :
    contributions ≠ [] ∧ moneyRange stake ∧ moneyRange subsidy ∧ moneyRange fee ∧
      contributions.all (fun c => moneyRange c.contributedAmount) ∧
      ∃ st', remunerationLoop ⟨contributions, stake, subsidy, fee, feePolicy, dustRelayFee,
          totalContribution contributions⟩ 0 σ ⟨List.replicate contributions.length 0, 0, 0⟩ =
        .ok (some st') ∧ st'.remunerations = r := by
  unfold netRemunerationsWithOrder at h
  by_cases hpre : contributions.length = 0 ∨ ¬ moneyRange stake = true ∨
      ¬ moneyRange subsidy = true ∨ ¬ moneyRange fee = true
  · rw [if_pos hpre] at h
    exact absurd (Except.ok.inj h).symm hr
  rw [if_neg hpre] at h
  by_cases hall : contributions.all (fun c => moneyRange c.contributedAmount) = true
  swap
  · rw [if_pos hall] at h
    exact absurd (Except.ok.inj h).symm hr
  rw [if_neg (not_not.2 hall)] at h
  simp only [not_or, not_not] at hpre
  obtain ⟨hn, hstake, hsub, hfee⟩ := hpre
  obtain ⟨o, hloop, h⟩ := except_bind_eq_ok.1 h
  rcases o with _ | st'
  · exact absurd (Except.ok.inj h).symm hr
  exact ⟨fun h' => hn (by simp [h']), hstake, hsub, hfee, hall, st', hloop, Except.ok.inj h⟩

/-- A nonempty result has an entry for every contribution.
Source: `src/validation.cpp` `CalculateNetRemunerations` (`remunerations(n)`)
Kind: L -/
theorem netRemunerationsWithOrder_length {r : List Int}
    (h : netRemunerationsWithOrder dustRelayFee contributions stake subsidy fee feePolicy σ = .ok r)
    (hr : r ≠ []) : r.length = contributions.length := by
  obtain ⟨-, -, -, -, -, st', hloop, rfl⟩ := netRemunerationsWithOrder_inv h hr
  rw [(remunerationLoop_frame hloop).1, List.length_replicate]

/-- Over a permutation of the indexes of a vector, testing each entry is testing the vector.
Source: none: list infrastructure for the loop of `CalculateNetRemunerations`
Kind: L -/
theorem all_getD_of_perm_range {l : List Int} {P : Int → Bool}
    (hσ : σ.Perm (List.range l.length)) : σ.all (fun j => P (l.getD j 0)) = l.all P := by
  rw [hσ.all_eq]
  apply Bool.eq_iff_iff.2
  simp only [List.all_eq_true, List.mem_range]
  constructor
  · intro h x hx
    obtain ⟨i, hi, rfl⟩ := List.mem_iff_getElem.1 hx
    have := h i hi
    rwa [List.getD_eq_getElem _ _ hi] at this
  · intro h i hi
    rw [List.getD_eq_getElem _ _ hi]
    exact h _ (List.getElem_mem hi)

/-- Without a fee, the same run at another fee rate keeps the vector when every remuneration
passes that rate's dust test, and returns `{}` otherwise.
Source: `src/validation.cpp` `CalculateNetRemunerations` (`IsDust(.., ::dustRelayFee)`)
Kind: L -/
theorem netRemunerationsWithOrder_withDustRelayFee (r : CFeeRate) {v : List Int}
    (hσ : σ.Perm (List.range contributions.length))
    (h : netRemunerationsWithOrder dustRelayFee contributions stake subsidy 0 feePolicy σ = .ok v)
    (hv : v ≠ []) :
    netRemunerationsWithOrder r contributions stake subsidy 0 feePolicy σ =
      .ok (if v.all (remunerationAdmissible r) then v else []) := by
  obtain ⟨hn, hstake, hsub, hfee, hall, st', hloop, rfl⟩ := netRemunerationsWithOrder_inv h hv
  have hlen := (remunerationLoop_frame hloop).1
  rw [List.length_replicate] at hlen
  have hlt : ∀ j ∈ σ, j < (List.replicate contributions.length (0 : Int)).length := by
    intro j hj
    rw [List.length_replicate]
    exact List.mem_range.1 (hσ.mem_iff.1 hj)
  rw [netRemunerationsWithOrder_eq_loop hn hstake hsub hfee hall,
    remunerationLoop_withDustRelayFee rfl r (hσ.nodup_iff.2 List.nodup_range) hlt hloop,
    all_getD_of_perm_range (hlen ▸ hσ)]
  split_ifs <;> rfl

/-- Without a fee, a successful run over any order of the indexes pays the floor shares, and
the last index of the order also the rounding loss.
Source: `src/validation.cpp` `CalculateNetRemunerations`
Kind: L -/
theorem netRemunerationsWithOrder_of_fee_zero {k : Nat} {r : List Int}
    (hσ : σ.Perm (List.range contributions.length)) (hk : σ.getLast? = some k)
    (hpos : 0 < totalContribution contributions) (htotal : totalContribution contributions < 2 ^ 64)
    (h : netRemunerationsWithOrder dustRelayFee contributions stake subsidy 0 feePolicy σ = .ok r)
    (hr : r ≠ []) :
    r = floorSharesWithRemainder contributions stake subsidy k := by
  obtain ⟨-, hstake, hsub, -, hall, st', hloop, rfl⟩ := netRemunerationsWithOrder_inv h hr
  obtain ⟨pre, rfl⟩ := List.getLast?_eq_some_iff.1 hk
  have hF : 0 ≤ stake + subsidy ∧ stake + subsidy < 2 ^ 63 := by
    rw [moneyRange_iff] at hstake hsub
    simp only [maxMoney, coin] at hstake hsub
    omega
  -- every floor share is computed exactly
  have hg : ∀ j, calculateGrossRemuneration (contributions.getD j default).contributedAmount stake
      subsidy (totalContribution contributions) = .ok (grossShare contributions stake subsidy j) :=
    fun j => calculateGrossRemuneration_eq (contributedAmount_le_total hall j).1
      (contributedAmount_le_total hall j).2 htotal hpos hF.1 hF.2
  have hlen := hσ.length_eq
  simp only [List.length_append, List.length_singleton, List.length_range] at hlen
  have hval := remunerationLoop_of_fee_zero (e := ⟨contributions, stake, subsidy, 0, feePolicy,
    dustRelayFee, totalContribution contributions⟩) rfl hg pre (by simp [NetRemunerationEnv.n]; omega)
    hloop
  rw [hval]
  -- the floors of `pre` are all the floors but `k`'s
  have hsum : (pre.map (grossShare contributions stake subsidy)).sum +
      grossShare contributions stake subsidy k =
      ((List.range contributions.length).map (grossShare contributions stake subsidy)).sum := by
    rw [← (hσ.map (grossShare contributions stake subsidy)).sum_eq]
    simp
  have hmem : ∀ x, x ∈ pre ++ [k] ↔ x < contributions.length := fun x => by
    rw [hσ.mem_iff, List.mem_range]
  have hnd : (pre ++ [k]).Nodup := hσ.nodup_iff.2 List.nodup_range
  have hkpre : k ∉ pre := by
    intro hk'
    have := (List.nodup_append.1 hnd).2.2
    simp at this
    exact this k hk' rfl
  apply List.ext_getElem?
  intro x
  rw [List.getElem?_set, length_foldl_set, getElem?_foldl_set, List.length_replicate,
    List.getElem?_replicate]
  simp only [floorSharesWithRemainder, List.getElem?_map, NetRemunerationEnv.funding]
  by_cases hx : x < contributions.length
  · rw [List.getElem?_range hx, Option.map_some]
    by_cases hxk : x = k
    · -- the last index: its floor and the loss
      subst hxk
      simp only [if_true, hx, Option.some.injEq]
      omega
    · have hxpre : x ∈ pre := by
        have := (hmem x).2 hx
        simp only [List.mem_append, List.mem_singleton, hxk, or_false] at this
        exact this
      simp [hx, hxk, Ne.symm hxk, hxpre]
  · have hkx : k ≠ x := fun h' => hx (h' ▸ (hmem k).1 (by simp))
    have hxpre : x ∉ pre := fun h' => hx ((hmem x).1 (by simp [h']))
    rw [List.getElem?_eq_none (by simpa using hx)]
    simp [hx, hkx, hxpre]

end run

/-! ## The order of ties -/

/-- The orders of the contribution indexes that `std::sort` may leave: a permutation of
`0 .. n-1`, the first left in place under `FirstContributor`, the rest without a pair in
descending fee-limit order.
Source: `src/validation.cpp` `CalculateNetRemunerations` (the index sort)
Kind: S -/
def AdmissibleOrder (contributions : List TicketContribData) (vote : Bool)
    (feePolicy : FeeDistributionPolicy) (indexes : List Nat) : Prop :=
  let start := if feePolicy = .firstContributor then 1 else 0
  indexes.Perm (List.range contributions.length) ∧
    indexes.take start = (List.range contributions.length).take start ∧
    (indexes.drop start).Pairwise fun a b => feeLimitLess contributions vote b a = false

/-- Source: `src/validation.cpp` `CalculateNetRemunerations` (the index sort). Kind: D -/
instance (contributions : List TicketContribData) (vote : Bool)
    (feePolicy : FeeDistributionPolicy) (indexes : List Nat) :
    Decidable (AdmissibleOrder contributions vote feePolicy indexes) :=
  inferInstanceAs (Decidable (_ ∧ _ ∧ _))

/-- Ascending fee limit is a strict weak order, as `std::sort` requires of its comparator.
Source: `src/validation.cpp` `CalculateNetRemunerations` (the `std::sort` lambda)
Kind: L -/
theorem feeLimitLess_isStrictWeakOrder (contributions : List TicketContribData) (vote : Bool) :
    IsStrictWeakOrder Nat (fun a b => feeLimitLess contributions vote a b = true) where
  irrefl a := by simp [feeLimitLess]
  trans a b c hab hbc := by
    simp only [feeLimitLess, decide_eq_true_eq] at hab hbc ⊢
    omega
  incomp_trans a b c hab hbc := by
    simp only [feeLimitLess, decide_eq_true_eq] at hab hbc ⊢
    omega

/-- Whatever a conforming `std::sort` does with ties, the order it leaves is admissible.
Source: `src/validation.cpp` `CalculateNetRemunerations` (the index sort)
Kind: L -/
theorem sortIndexes_admissible {sort : StdSort} (hsort : StdSortContract sort)
    {contributions : List TicketContribData} (hn : contributions ≠ []) (vote : Bool)
    (feePolicy : FeeDistributionPolicy) :
    AdmissibleOrder contributions vote feePolicy
      (sortIndexes sort contributions vote feePolicy) := by
  have hswo := feeLimitLess_isStrictWeakOrder contributions vote
  have hlen : ((List.range contributions.length).take
      (if feePolicy = .firstContributor then 1 else 0)).length =
      if feePolicy = .firstContributor then 1 else 0 := by
    have : 0 < contributions.length := List.length_pos_iff.2 hn
    split_ifs <;> simp; omega
  refine ⟨?_, ?_, ?_⟩
  · have hperm := List.Perm.append_left ((List.range contributions.length).take
      (if feePolicy = .firstContributor then 1 else 0)) (hsort.perm (feeLimitLess contributions vote)
      ((List.range contributions.length).drop (if feePolicy = .firstContributor then 1 else 0)) hswo)
    rwa [List.take_append_drop] at hperm
  · exact List.take_left' hlen
  · show (List.drop _ (_ ++ sort (feeLimitLess contributions vote) _)).Pairwise _
    rw [List.drop_left' hlen]
    exact hsort.sorted _ _ hswo

/-- With a conforming sort and no fee, `CalculateNetRemunerations` at another `::dustRelayFee`
keeps the remunerations when each passes that rate's dust test, and returns `{}` otherwise.
Source: `src/validation.cpp` `CalculateNetRemunerations`
Kind: L -/
theorem calculateNetRemunerations_withDustRelayFee {sort : StdSort} (hsort : StdSortContract sort)
    {r₁ : CFeeRate} (r₂ : CFeeRate) {contributions : List TicketContribData} {stake subsidy : Int}
    {feePolicy : FeeDistributionPolicy} {v : List Int}
    (h : calculateNetRemunerations sort r₁ contributions stake subsidy 0 feePolicy = .ok v)
    (hv : v ≠ []) :
    calculateNetRemunerations sort r₂ contributions stake subsidy 0 feePolicy =
      .ok (if v.all (remunerationAdmissible r₂) then v else []) :=
  netRemunerationsWithOrder_withDustRelayFee r₂
    (sortIndexes_admissible hsort (netRemunerationsWithOrder_inv h hv).1 _ _).1 h hv

/-- With a conforming sort and no fee, `CalculateNetRemunerations` pays every contributor its
floor share, and the one its sort leaves last also the rounding loss.
Source: `src/validation.cpp` `CalculateNetRemunerations`
Kind: T -/
theorem calculateNetRemunerations_of_fee_zero {sort : StdSort} (hsort : StdSortContract sort)
    {dustRelayFee : CFeeRate} {contributions : List TicketContribData} {stake subsidy : Int}
    {feePolicy : FeeDistributionPolicy} {r : List Int}
    (hpos : 0 < totalContribution contributions) (htotal : totalContribution contributions < 2 ^ 64)
    (h : calculateNetRemunerations sort dustRelayFee contributions stake subsidy 0 feePolicy = .ok r)
    (hr : r ≠ []) :
    ∃ k, (sortIndexes sort contributions (decide (0 < subsidy)) feePolicy).getLast? = some k ∧
      r = floorSharesWithRemainder contributions stake subsidy k := by
  have hσ := (sortIndexes_admissible hsort (netRemunerationsWithOrder_inv h hr).1
    (decide (0 < subsidy)) feePolicy).1
  -- the sorted indexes are a permutation of a nonempty range, so one of them is last
  obtain ⟨k, hk⟩ : ∃ k, (sortIndexes sort contributions (decide (0 < subsidy)) feePolicy).getLast? =
      some k := by
    cases hlast : (sortIndexes sort contributions (decide (0 < subsidy)) feePolicy).getLast? with
    | some k => exact ⟨k, rfl⟩
    | none =>
      rw [List.getLast?_eq_none_iff] at hlast
      rw [hlast, List.nil_perm, List.range_eq_nil, List.length_eq_zero_iff] at hσ
      exact absurd hσ (netRemunerationsWithOrder_inv h hr).1
  exact ⟨k, hk, netRemunerationsWithOrder_of_fee_zero hσ hk hpos htotal h hr⟩

/-- A strict weak order is negatively transitive: not below, then not below, is not below.
Source: none: order infrastructure for `StdSortContract`
Kind: L -/
theorem not_rel_trans_of_isStrictWeakOrder {r : Nat → Nat → Prop} [IsStrictWeakOrder Nat r]
    {a b c : Nat} (hba : ¬ r b a) (hcb : ¬ r c b) : ¬ r c a := by
  intro hca
  by_cases hab : r a b
  · exact hcb (IsTrans.trans _ _ _ hca hab)
  by_cases hbc : r b c
  · exact hba (IsTrans.trans _ _ _ hbc hca)
  -- `a`, `b` and then `c` are pairwise equivalent
  exact (IsStrictWeakOrder.incomp_trans a b c ⟨hab, hba⟩ ⟨hbc, hcb⟩).2 hca

/-- Insertion sort on "not greater": a stable sort, which keeps equivalent indexes in their
order.
Kind: S -/
def insertionSortIndexes : StdSort :=
  fun comp l => l.insertionSort (fun a b => comp b a = false)

/-- Insertion sort meets the contract of `std::sort`.
Kind: L -/
theorem insertionSortIndexes_contract : StdSortContract insertionSortIndexes where
  perm _ l _ := List.perm_insertionSort _ l
  sorted comp l hswo := by
    -- "not greater" is total and transitive for a strict weak order
    have htotal : Std.Total (fun a b => comp b a = false) := ⟨fun a b => by
      by_cases hba : comp b a = true
      · -- `b` below `a`, so `a` is not below `b`
        right
        by_contra hab
        have hab : comp a b = true := by simpa using hab
        exact Std.Irrefl.irrefl (r := fun a b => comp a b = true) b
          (IsTrans.trans (r := fun a b => comp a b = true) _ _ _ hba hab)
      · left
        simpa using hba⟩
    have htrans : IsTrans Nat (fun a b => comp b a = false) := ⟨fun a b c hab hbc => by
      have := not_rel_trans_of_isStrictWeakOrder (r := fun a b => comp a b = true)
        (a := a) (b := b) (c := c) (by simpa using hab) (by simpa using hbc)
      simpa using this⟩
    exact List.pairwise_insertionSort _ l

/-- Without a fee, two orders whose last indexes differ give the same remunerations exactly when
the floor shares lose nothing to rounding: the loss goes to whichever contributor is last, and
between contributors of equal fee limit that is up to `std::sort`.
Source: `src/validation.cpp` `CalculateNetRemunerations`
Kind: T -/
theorem remunerations_depend_on_tie_order {dustRelayFee : CFeeRate}
    {contributions : List TicketContribData} {stake subsidy : Int}
    {feePolicy : FeeDistributionPolicy} {σ τ : List Nat} {kσ kτ : Nat} {rσ rτ : List Int}
    (hσ : σ.Perm (List.range contributions.length)) (hτ : τ.Perm (List.range contributions.length))
    (hkσ : σ.getLast? = some kσ) (hkτ : τ.getLast? = some kτ) (hne : kσ ≠ kτ)
    (hpos : 0 < totalContribution contributions) (htotal : totalContribution contributions < 2 ^ 64)
    (hrσ : netRemunerationsWithOrder dustRelayFee contributions stake subsidy 0 feePolicy σ = .ok rσ)
    (hrτ : netRemunerationsWithOrder dustRelayFee contributions stake subsidy 0 feePolicy τ = .ok rτ)
    (hσne : rσ ≠ []) (hτne : rτ ≠ []) :
    rσ = rτ ↔ ((List.range contributions.length).map
      (grossShare contributions stake subsidy)).sum = stake + subsidy := by
  rw [netRemunerationsWithOrder_of_fee_zero hσ hkσ hpos htotal hrσ hσne,
    netRemunerationsWithOrder_of_fee_zero hτ hkτ hpos htotal hrτ hτne]
  have hk : kσ < contributions.length := List.mem_range.1 (hσ.mem_iff.1 (List.mem_of_getLast? hkσ))
  constructor
  · -- compare the two vectors at `kσ`, the last of `σ` only
    intro h
    have := congrArg (fun l => l[kσ]?) h
    simp [floorSharesWithRemainder, hk, hne] at this
    omega
  · intro h
    simp only [floorSharesWithRemainder, h, Int.sub_self, Int.add_zero, ite_self]

/-- Three contributors of one coin each, with the wallet's default fee limits (no vote fee, a
revocation fee of `2^20`), vote on a 3-coin ticket with a subsidy of 0.1 coin. The orders
`0 1 2` and `0 2 1` are both admissible, and the satoshi the three floors lose goes to
contributor 2 under the first and to contributor 1 under the second.
Kind: W -/
theorem remunerations_depend_on_tie_order_three_coins :
    let share : TicketContribData :=
      ⟨1, List.replicate 20 0, 1, 100000000, 0, 1048576, rfl, rfl, rfl⟩
    let cs := [share, share, share]
    AdmissibleOrder cs true .firstContributor [0, 1, 2] ∧
    AdmissibleOrder cs true .firstContributor [0, 2, 1] ∧
    netRemunerationsWithOrder defaultDustRelayFee cs 300000000 10000000 0 .firstContributor
      [0, 1, 2] = .ok [103333333, 103333333, 103333334] ∧
    netRemunerationsWithOrder defaultDustRelayFee cs 300000000 10000000 0 .firstContributor
      [0, 2, 1] = .ok [103333333, 103333334, 103333333] ∧
    (([103333333, 103333333, 103333334] : List Int) = [103333333, 103333334, 103333333] ↔
      ((List.range cs.length).map (grossShare cs 300000000 10000000)).sum =
        300000000 + 10000000) := by
  intro share cs
  have h₁ : netRemunerationsWithOrder defaultDustRelayFee cs 300000000 10000000 0
      .firstContributor [0, 1, 2] = .ok [103333333, 103333333, 103333334] := by decide
  have h₂ : netRemunerationsWithOrder defaultDustRelayFee cs 300000000 10000000 0
      .firstContributor [0, 2, 1] = .ok [103333333, 103333334, 103333333] := by decide
  exact ⟨by decide, by decide, h₁, h₂,
    remunerations_depend_on_tie_order (by decide) (by decide) rfl rfl (by decide) (by decide)
      (by decide) h₁ h₂ (by simp) (by simp)⟩

/-- The three one-coin contributors of the vote above, sorted by insertion: the last index is 2,
which receives the lost satoshi.
Kind: W -/
theorem calculateNetRemunerations_of_fee_zero_three_coins :
    let share : TicketContribData :=
      ⟨1, List.replicate 20 0, 1, 100000000, 0, 1048576, rfl, rfl, rfl⟩
    let cs := [share, share, share]
    0 < totalContribution cs ∧ totalContribution cs < 2 ^ 64 ∧
    calculateNetRemunerations insertionSortIndexes defaultDustRelayFee cs 300000000 10000000 0
      .firstContributor = .ok [103333333, 103333333, 103333334] ∧
    ∃ k, (sortIndexes insertionSortIndexes cs (decide (0 < (10000000 : Int)))
        .firstContributor).getLast? = some k ∧
      [103333333, 103333333, 103333334] = floorSharesWithRemainder cs 300000000 10000000 k := by
  intro share cs
  have h : calculateNetRemunerations insertionSortIndexes defaultDustRelayFee cs 300000000 10000000 0
      .firstContributor = .ok [103333333, 103333333, 103333334] := by decide
  exact ⟨by decide, by decide, h, calculateNetRemunerations_of_fee_zero insertionSortIndexes_contract
    (by decide) (by decide) h (by simp)⟩

end BwsCoin.Stake
