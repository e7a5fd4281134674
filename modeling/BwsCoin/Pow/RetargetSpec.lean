import BwsCoin.Pow.Retarget

/-!
# When retargeting returns

Every assertion on the retargeting paths of `pow.cpp` but one holds on every well-formed chain
under four plain conditions on the parameters (`CashRuleOK`, `LegacyRuleOK`): the look-backs
stay inside the chain, the medians are taken at least three blocks up, the two medians are in
order, and every divisor is nonzero. The one that remains is
`assert(nHeight >= params.DifficultyAdjustmentInterval())` in `GetNextCashWorkRequired`,
reached by every parent past the initial-difficulty blocks of the fork; it fails exactly at the
parents below the legacy adjustment interval (`CashIntervalFails`).

* `getNextCashWorkRequired_ok`, `getNextLegacyWorkRequired_ok`: the two rules return outside
  that window; `getNextWorkRequired_eq_error_iff` assembles them: retargeting fails exactly in
  the window, with that assertion.
* On main the window is nonempty: the fork is at 101 with 10 initial blocks, and the interval is
  `14 days / 10 minutes = 2016`, so every parent at heights `111 .. 2015` aborts
  (`getNextWorkRequired_main_aborts`). On testnet the interval is 6, below the fork, so the
  window is empty; regtest never retargets (`getNextWorkRequired_testnet_regtest_ok`).
-/

namespace BwsCoin.Pow

open Consensus

/-! ## The chain -/

namespace BlockIndex

/-- Source: none: infrastructure. Kind: L -/
@[simp] theorem nHeight_genesis (f : IndexFields) : (genesis f).nHeight = 0 := rfl

/-- Source: none: infrastructure. Kind: L -/
@[simp] theorem nHeight_cons (b : BlockIndex) (f : IndexFields) :
    (cons b f).nHeight = b.nHeight + 1 := rfl

/-- Walking back `n ≤ nHeight` links lands `n` heights lower.
Source: `src/chain.cpp` `CBlockIndex::GetAncestor`
Kind: L -/
theorem nHeight_walkBack : ∀ (b : BlockIndex) (n : Nat), n ≤ b.nHeight →
    (b.walkBack n).nHeight = b.nHeight - n
  | b, 0, _ => by cases b <;> rfl
  | genesis _, _ + 1, h => absurd h (by simp)
  | cons pprev _, n + 1, h => by
    rw [walkBack, nHeight_walkBack pprev n (by simp at h; omega), nHeight_cons]
    omega

/-- `GetAncestor` finds an entry at every height in `[0, nHeight]`.
Source: `src/chain.cpp` `CBlockIndex::GetAncestor`
Kind: L -/
theorem getAncestor_of_le {b : BlockIndex} (height : Int) (h0 : 0 ≤ height)
    (hle : height ≤ b.nHeight) : ∃ a, b.getAncestor height = some a ∧ (a.nHeight : Int) = height := by
  refine ⟨_, if_neg (by omega), ?_⟩
  rw [nHeight_walkBack b _ (by omega)]
  omega

/-- A chain of `n` entries on top of `b` is `n` heights above it.
Source: none: infrastructure
Kind: L -/
theorem nHeight_repeat_cons (f : IndexFields) (b : BlockIndex) :
    ∀ n, (Nat.repeat (fun b => cons b f) n b).nHeight = b.nHeight + n
  | 0 => rfl
  | n + 1 => by rw [Nat.repeat, nHeight_cons, nHeight_repeat_cons f b n]; omega

end BlockIndex

/-! ## The medians and the target -/

/-- The sorting network returns one of its three inputs.
Source: `src/pow.cpp` `GetSuitableBlock`
Kind: L -/
theorem medianOfThree_mem (b0 b1 b2 : BlockIndex) :
    medianOfThree b0 b1 b2 = b0 ∨ medianOfThree b0 b1 b2 = b1 ∨ medianOfThree b0 b1 b2 = b2 := by
  unfold medianOfThree
  dsimp only
  split_ifs <;> simp

/-- From height 3 on, `GetSuitableBlock` returns an entry at most two below its argument.
Source: `src/pow.cpp` `GetSuitableBlock`
Kind: L -/
theorem getSuitableBlock_ok (pindex : BlockIndex) (h : 3 ≤ pindex.nHeight) :
    ∃ m, getSuitableBlock pindex = .ok m ∧ pindex.nHeight ≤ m.nHeight + 2 ∧
      m.nHeight ≤ pindex.nHeight := by
  match pindex, h with
  | .genesis _, h => exact absurd h (by simp)
  | .cons (.genesis _) _, h => exact absurd h (by simp)
  | .cons (.cons b0 f1) f2, h =>
    refine ⟨medianOfThree b0 (.cons b0 f1) (.cons (.cons b0 f1) f2), ?_, ?_⟩
    · unfold getSuitableBlock
      rw [if_neg (not_not.2 h)]
      rfl
    · -- the median is the entry itself or one of its two parents
      rcases medianOfThree_mem b0 (.cons b0 f1) (.cons (.cons b0 f1) f2) with hm | hm | hm <;>
        (rw [hm]; simp only [BlockIndex.nHeight_cons]; omega)

/-- The clamp of `ComputeTarget`, high bound first, stays in `[lo, hi]`.
Source: `src/pow.cpp` `ComputeTarget`
Kind: L -/
theorem clamp_hi_lo (x : Int) {lo hi : Int} (h : lo ≤ hi) :
    ∃ y, (if x > hi then hi else if x < lo then lo else x) = y ∧ lo ≤ y ∧ y ≤ hi := by
  refine ⟨_, rfl, ?_⟩
  split_ifs <;> omega

/-- The clamp of `CalculateNextWorkRequired`, low bound first, stays in `[lo, hi]`.
Source: `src/pow.cpp` `CalculateNextWorkRequired`
Kind: L -/
theorem clamp_lo_hi (x : Int) {lo hi : Int} (h : lo ≤ hi) :
    ∃ y, (if (if x < lo then lo else x) > hi then hi else if x < lo then lo else x) = y ∧
      lo ≤ y ∧ y ≤ hi := by
  refine ⟨_, rfl, ?_⟩
  split_ifs <;> omega

/-- A positive `int64_t` below `2^64` is a nonzero `arith_uint256`.
Source: `src/arith_uint256.h` `base_uint::base_uint(uint64_t)`
Kind: L -/
theorem ofNat_uint64Of_ne_zero {x : Int} (h0 : 0 < x) (h1 : x < 2 ^ 64) :
    BitVec.ofNat 256 (uint64Of x) ≠ 0 := by
  have hx : uint64Of x = x.toNat := by
    unfold uint64Of
    rw [Int.emod_eq_of_lt h0.le h1]
  intro hz
  have h := congrArg BitVec.toNat hz
  rw [hx, BitVec.toNat_ofNat, show BitVec.toNat (0 : BitVec 256) = 0 from rfl] at h
  omega

/-- The conditions on the parameters under which the cash rule fails at its interval assertion
only: the fork at height 2 or later, at least 4 initial-difficulty blocks, and a positive block
spacing whose 288-fold fits a `uint64_t`.
Source: `src/chainparams.cpp` (the parameters `pow.cpp` reads)
Kind: D -/
structure CashRuleOK (p : Params) : Prop where
  fork_ge : 2 ≤ p.nHybridConsensusHeight.toInt
  count_ge : 4 ≤ p.nHybridConsensusInitialDifficultyBlockCount.toInt
  spacing_pos : 0 < p.nPowTargetSpacing.toInt
  spacing_lt : 288 * p.nPowTargetSpacing.toInt < 2 ^ 64

/-- The conditions on the parameters under which the legacy rule never fails: a positive
adjustment interval and a target timespan of at least 4 seconds whose 4-fold fits a
`uint64_t`.
Source: `src/chainparams.cpp` (the parameters `pow.cpp` reads)
Kind: D -/
structure LegacyRuleOK (p : Params) : Prop where
  interval_pos : 0 < p.difficultyAdjustmentInterval.toInt
  timespan_ge : 4 ≤ p.nPowTargetTimespan.toInt
  timespan_lt : p.nPowTargetTimespan.toInt * 4 < 2 ^ 64

section rules

variable {p : Params}

/-- `ComputeTarget` returns when the last entry is above the first: the clamped timespan is a
nonzero divisor, and so is a nonzero work.
Source: `src/pow.cpp` `ComputeTarget`
Kind: L -/
theorem computeTarget_ok (hp : CashRuleOK p) (first last : BlockIndex)
    (hh : first.nHeight < last.nHeight) : ∃ t, computeTarget p first last = .ok t := by
  have hs := hp.spacing_pos
  have hs' := hp.spacing_lt
  unfold computeTarget
  rw [if_neg (not_not.2 hh)]
  dsimp only
  obtain ⟨span, hspan, hlo, hhi⟩ := clamp_hi_lo ((last.nTime.toNat : Int) - first.nTime.toNat)
    (show 72 * p.nPowTargetSpacing.toInt ≤ 288 * p.nPowTargetSpacing.toInt by omega)
  rw [hspan, div256_of_ne_zero (ofNat_uint64Of_ne_zero (by omega) (by omega)), except_ok_bind]
  split
  · exact ⟨_, rfl⟩
  · exact ⟨_, div256_of_ne_zero ‹_›⟩

/-- `CalculateNextWorkRequired` returns: the clamped timespan and the target timespan are
nonzero divisors.
Source: `src/pow.cpp` `CalculateNextWorkRequired`
Kind: L -/
theorem calculateNextWorkRequired_ok (hp : LegacyRuleOK p) (first last : BlockIndex) :
    ∃ c, calculateNextWorkRequired p first last = .ok c := by
  have hT := hp.timespan_ge
  have hT' := hp.timespan_lt
  unfold calculateNextWorkRequired
  split
  · exact ⟨_, rfl⟩
  dsimp only
  -- a quarter of the timespan is positive
  have hq : p.nPowTargetTimespan.toInt.tdiv 4 = p.nPowTargetTimespan.toInt / 4 :=
    Int.tdiv_eq_ediv_of_nonneg (by omega)
  obtain ⟨span, hspan, hlo, hhi⟩ := clamp_lo_hi (last.getBlockTime - first.getBlockTime)
    (show p.nPowTargetTimespan.toInt.tdiv 4 ≤ p.nPowTargetTimespan.toInt * 4 by omega)
  have hdiv := ofNat_uint64Of_ne_zero (x := p.nPowTargetTimespan.toInt) (by omega) (by omega)
  rw [hspan, div256_of_ne_zero (ofNat_uint64Of_ne_zero (by omega) (by omega)), except_ok_bind]
  split
  · -- divide first, then multiply
    rw [div256_of_ne_zero hdiv, except_ok_bind]
    split
    · exact getCompact_ok _
    · exact getCompact_ok _
  · rw [div256_of_ne_zero hdiv, except_ok_bind]
    exact getCompact_ok _

/-- The parents at which `GetNextCashWorkRequired` reaches
`assert(nHeight >= params.DifficultyAdjustmentInterval())` and fails it: past the
initial-difficulty blocks, not a late min-difficulty block, and below the interval.
Source: `src/pow.cpp` `GetNextCashWorkRequired`
Kind: D -/
def CashIntervalFails (p : Params) (pindexPrev : BlockIndex) (pblockTime : UInt32) : Prop :=
  p.nHybridConsensusHeight.toInt + p.nHybridConsensusInitialDifficultyBlockCount.toInt ≤
      pindexPrev.nHeight ∧
    ¬ (p.fPowAllowMinDifficultyBlocks = true ∧
      (pblockTime.toNat : Int) > pindexPrev.getBlockTime + 2 * p.nPowTargetSpacing.toInt) ∧
    (pindexPrev.nHeight : Int) < p.difficultyAdjustmentInterval.toInt

/-- Source: `src/pow.cpp` `GetNextCashWorkRequired`. Kind: D -/
instance (p : Params) (pindexPrev : BlockIndex) (pblockTime : UInt32) :
    Decidable (CashIntervalFails p pindexPrev pblockTime) :=
  inferInstanceAs (Decidable (_ ∧ _ ∧ _))

/-- In the window, the cash rule aborts at its interval assertion.
Source: `src/pow.cpp` `GetNextCashWorkRequired`
Kind: L -/
theorem getNextCashWorkRequired_of_fails {pindexPrev : BlockIndex} {pblockTime : UInt32}
    (h : CashIntervalFails p pindexPrev pblockTime) :
    getNextCashWorkRequired p pindexPrev pblockTime =
      .error (.abort "nHeight >= params.DifficultyAdjustmentInterval()") := by
  obtain ⟨hinit, hmin, hdai⟩ := h
  unfold getNextCashWorkRequired
  rw [if_neg (by omega), if_neg hmin]
  dsimp only
  rw [if_pos (by omega)]

/-- Outside the window the cash rule returns: the median at the parent is above the median at
the ancestor, which the fork height keeps at height 3 or more.
Source: `src/pow.cpp` `GetNextCashWorkRequired`
Kind: L -/
theorem getNextCashWorkRequired_ok (hp : CashRuleOK p) {pindexPrev : BlockIndex}
    {pblockTime : UInt32} (h : ¬ CashIntervalFails p pindexPrev pblockTime) :
    ∃ c, getNextCashWorkRequired p pindexPrev pblockTime = .ok c := by
  have hH := hp.fork_ge
  have hC := hp.count_ge
  unfold getNextCashWorkRequired
  by_cases hinit : (pindexPrev.nHeight : Int) <
      p.nHybridConsensusHeight.toInt + p.nHybridConsensusInitialDifficultyBlockCount.toInt
  · exact ⟨_, if_pos hinit⟩
  rw [if_neg hinit]
  by_cases hmin : p.fPowAllowMinDifficultyBlocks = true ∧
      (pblockTime.toNat : Int) > pindexPrev.getBlockTime + 2 * p.nPowTargetSpacing.toInt
  · rw [if_pos hmin]
    exact getCompact_ok _
  rw [if_neg hmin]
  -- past the initial blocks and not a min-difficulty block, so at or above the interval
  have hdai : p.difficultyAdjustmentInterval.toInt ≤ pindexPrev.nHeight := by
    by_contra hlt
    exact h ⟨by omega, hmin, by omega⟩
  rw [if_neg (not_not.2 hdai)]
  obtain ⟨last, hlast, hlast₁, -⟩ := getSuitableBlock_ok pindexPrev (by omega)
  rw [hlast, except_ok_bind]
  dsimp only
  obtain ⟨anc, hanc, hancH⟩ := BlockIndex.getAncestor_of_le (b := pindexPrev)
    (if (pindexPrev.nHeight : Int) - 144 < p.nHybridConsensusHeight.toInt + 1 then
      p.nHybridConsensusHeight.toInt + 1 else (pindexPrev.nHeight : Int) - 144)
    (by split_ifs <;> omega) (by split_ifs <;> omega)
  obtain ⟨first, hfirst, -, hfirst₂⟩ := getSuitableBlock_ok anc
    (by split_ifs at hancH <;> omega)
  rw [hanc]
  dsimp only
  rw [hfirst, except_ok_bind]
  -- the ancestor is more than two blocks below the parent
  obtain ⟨t, ht⟩ := computeTarget_ok hp first last
    (by split_ifs at hancH <;> omega)
  rw [ht, except_ok_bind]
  split
  · exact getCompact_ok _
  · exact getCompact_ok _

/-- The legacy rule returns on every chain: at an adjustment block the parent is at least one
interval high, so the look-back stays in the chain.
Source: `src/pow.cpp` `GetNextLegacyWorkRequired`
Kind: L -/
theorem getNextLegacyWorkRequired_ok (hp : LegacyRuleOK p) (pindexLast : BlockIndex)
    (pblockTime : UInt32) : ∃ c, getNextLegacyWorkRequired p pindexLast pblockTime = .ok c := by
  have hD := hp.interval_pos
  obtain ⟨lim, hlim⟩ := getCompact_ok p.powLimit
  unfold getNextLegacyWorkRequired
  rw [hlim, except_ok_bind]
  dsimp only
  split
  · -- between adjustment blocks the result is a stored target
    split
    · split
      · exact ⟨_, rfl⟩
      · exact ⟨_, rfl⟩
    · exact ⟨_, rfl⟩
  · next hmod =>
    -- the next height is a positive multiple of the interval
    have hdvd : p.difficultyAdjustmentInterval.toInt ∣ ((pindexLast.nHeight + 1 : Nat) : Int) :=
      Int.dvd_of_emod_eq_zero (by rwa [not_not, Int.tmod_eq_emod_of_nonneg (by omega)] at hmod)
    have hle := Int.le_of_dvd (by omega) hdvd
    rw [if_neg (by omega)]
    obtain ⟨first, hfirst, -⟩ := BlockIndex.getAncestor_of_le (b := pindexLast)
      ((pindexLast.nHeight : Int) - (p.difficultyAdjustmentInterval.toInt - 1))
      (by omega) (by omega)
    rw [hfirst]
    exact calculateNextWorkRequired_ok hp first pindexLast

/-- With the cash rule's parameters, past the initial-difficulty blocks the fork is enabled.
Source: `src/validation.cpp` `IsHybridConsensusForkEnabled`
Kind: L -/
theorem isHybridConsensusForkEnabled_of_le (hp : CashRuleOK p) {height : Int}
    (h : p.nHybridConsensusHeight.toInt + p.nHybridConsensusInitialDifficultyBlockCount.toInt ≤
      height) : isHybridConsensusForkEnabled p height = true := by
  have hH := hp.fork_ge
  have hC := hp.count_ge
  unfold isHybridConsensusForkEnabled
  exact decide_eq_true ⟨by omega, by omega⟩

/-- In the window, retargeting aborts.
Source: `src/pow.cpp` `GetNextWorkRequired`
Kind: L -/
theorem getNextWorkRequired_of_fails (hc : CashRuleOK p) (hnr : p.fPowNoRetargeting = false)
    {pindexPrev : BlockIndex} {pblockTime : UInt32}
    (h : CashIntervalFails p pindexPrev pblockTime) :
    getNextWorkRequired p pindexPrev pblockTime =
      .error (.abort "nHeight >= params.DifficultyAdjustmentInterval()") := by
  unfold getNextWorkRequired
  rw [hnr, if_neg Bool.false_ne_true, if_pos (isHybridConsensusForkEnabled_of_le hc h.1)]
  exact getNextCashWorkRequired_of_fails h

/-- Outside the window, retargeting returns.
Source: `src/pow.cpp` `GetNextWorkRequired`
Kind: L -/
theorem getNextWorkRequired_ok (hl : LegacyRuleOK p) (hc : CashRuleOK p)
    {pindexPrev : BlockIndex} {pblockTime : UInt32}
    (h : ¬ (p.fPowNoRetargeting = false ∧ CashIntervalFails p pindexPrev pblockTime)) :
    ∃ c, getNextWorkRequired p pindexPrev pblockTime = .ok c := by
  unfold getNextWorkRequired
  split
  · exact ⟨_, rfl⟩
  · next hnr =>
    split
    · exact getNextCashWorkRequired_ok hc fun hf => h ⟨by simpa using hnr, hf⟩
    · exact getNextLegacyWorkRequired_ok hl pindexPrev pblockTime

/-- **Retargeting fails exactly in the window, with the interval assertion.**
Source: `src/pow.cpp` `GetNextWorkRequired`, `GetNextCashWorkRequired`,
`GetNextLegacyWorkRequired`, `GetSuitableBlock`, `ComputeTarget`, `CalculateNextWorkRequired`
Kind: T -/
theorem getNextWorkRequired_eq_error_iff (hl : LegacyRuleOK p) (hc : CashRuleOK p)
    (pindexPrev : BlockIndex) (pblockTime : UInt32) (e : Fault) :
    getNextWorkRequired p pindexPrev pblockTime = .error e ↔
      p.fPowNoRetargeting = false ∧ CashIntervalFails p pindexPrev pblockTime ∧
        e = .abort "nHeight >= params.DifficultyAdjustmentInterval()" := by
  constructor
  · intro herr
    by_cases hw : p.fPowNoRetargeting = false ∧ CashIntervalFails p pindexPrev pblockTime
    · refine ⟨hw.1, hw.2, ?_⟩
      rw [getNextWorkRequired_of_fails hc hw.1 hw.2] at herr
      exact (Except.error.inj herr).symm
    · obtain ⟨c, hok⟩ := getNextWorkRequired_ok hl hc hw
      rw [hok] at herr
      cases herr
  · rintro ⟨hnr, hw, rfl⟩
    exact getNextWorkRequired_of_fails hc hnr hw

end rules

/-! ## The shipped parameters -/

/-- Source: `src/chainparams.cpp` `CMainParams`. Kind: L -/
theorem cashRuleOK_main : CashRuleOK main := ⟨by decide, by decide, by decide, by decide⟩

/-- Source: `src/chainparams.cpp` `CMainParams`. Kind: L -/
theorem legacyRuleOK_main : LegacyRuleOK main := ⟨by decide, by decide, by decide⟩

/-- Source: `src/chainparams.cpp` `CTestNetParams`. Kind: L -/
theorem cashRuleOK_testnet : CashRuleOK testnet := ⟨by decide, by decide, by decide, by decide⟩

/-- Source: `src/chainparams.cpp` `CTestNetParams`. Kind: L -/
theorem legacyRuleOK_testnet : LegacyRuleOK testnet := ⟨by decide, by decide, by decide⟩

/-- The characterisation at main's parent of height 111.
Source: `src/pow.cpp` `GetNextWorkRequired`, `src/chainparams.cpp` `CMainParams`
Kind: W -/
theorem getNextWorkRequired_eq_error_iff_main_111 :
    LegacyRuleOK main ∧ CashRuleOK main ∧
      (getNextWorkRequired main
          (Nat.repeat (fun b => BlockIndex.cons b ⟨0, 0, 0⟩) 111 (.genesis ⟨0, 0, 0⟩)) 0 =
          .error (.abort "nHeight >= params.DifficultyAdjustmentInterval()") ↔
        main.fPowNoRetargeting = false ∧
          CashIntervalFails main
            (Nat.repeat (fun b => BlockIndex.cons b ⟨0, 0, 0⟩) 111 (.genesis ⟨0, 0, 0⟩)) 0 ∧
          Fault.abort "nHeight >= params.DifficultyAdjustmentInterval()" =
            .abort "nHeight >= params.DifficultyAdjustmentInterval()") :=
  ⟨legacyRuleOK_main, cashRuleOK_main,
    getNextWorkRequired_eq_error_iff legacyRuleOK_main cashRuleOK_main _ _ _⟩

/-- On main, every parent at heights `111 .. 2015` is in the window.
Source: `src/chainparams.cpp` `CMainParams`
Kind: L -/
theorem cashIntervalFails_main_iff (pindexPrev : BlockIndex) (pblockTime : UInt32) :
    CashIntervalFails main pindexPrev pblockTime ↔
      111 ≤ pindexPrev.nHeight ∧ pindexPrev.nHeight < 2016 := by
  have hH : main.nHybridConsensusHeight.toInt = 101 := by decide
  have hC : main.nHybridConsensusInitialDifficultyBlockCount.toInt = 10 := by decide
  have hD : main.difficultyAdjustmentInterval.toInt = 2016 := by decide
  have hmin : main.fPowAllowMinDifficultyBlocks = false := rfl
  unfold CashIntervalFails
  rw [hH, hC, hD, hmin]
  simp only [Bool.false_eq_true, false_and, not_false_eq_true, true_and]
  omega

/-- On testnet the window is empty: the interval, 6, is below the fork.
Source: `src/chainparams.cpp` `CTestNetParams`
Kind: L -/
theorem not_cashIntervalFails_testnet (pindexPrev : BlockIndex) (pblockTime : UInt32) :
    ¬ CashIntervalFails testnet pindexPrev pblockTime := by
  have hH : testnet.nHybridConsensusHeight.toInt = 101 := by decide
  have hD : testnet.difficultyAdjustmentInterval.toInt = 6 := by decide
  rintro ⟨hinit, -, hdai⟩
  rw [hH] at hinit
  rw [hD] at hdai
  have hC : (0 : Int) ≤ testnet.nHybridConsensusInitialDifficultyBlockCount.toInt := by decide
  omega

/-- **On main, retargeting aborts at every parent of height `111 .. 2015`.**
Source: `src/pow.cpp` `GetNextCashWorkRequired`; `src/chainparams.cpp` `CMainParams`
Kind: T -/
theorem getNextWorkRequired_main_aborts (pindexPrev : BlockIndex) (pblockTime : UInt32)
    (h₁ : 111 ≤ pindexPrev.nHeight) (h₂ : pindexPrev.nHeight < 2016) :
    getNextWorkRequired main pindexPrev pblockTime =
      .error (.abort "nHeight >= params.DifficultyAdjustmentInterval()") :=
  getNextWorkRequired_of_fails cashRuleOK_main rfl
    ((cashIntervalFails_main_iff pindexPrev pblockTime).2 ⟨h₁, h₂⟩)

/-- The main chain's first parent in the window: 111 empty entries on a genesis entry.
Source: `src/pow.cpp` `GetNextWorkRequired`, `src/chainparams.cpp` `CMainParams`
Kind: W -/
theorem getNextWorkRequired_main_aborts_at_111 :
    111 ≤ (Nat.repeat (fun b => BlockIndex.cons b ⟨0, 0, 0⟩) 111 (.genesis ⟨0, 0, 0⟩)).nHeight ∧
      (Nat.repeat (fun b => BlockIndex.cons b ⟨0, 0, 0⟩) 111 (.genesis ⟨0, 0, 0⟩)).nHeight < 2016 ∧
      getNextWorkRequired main
          (Nat.repeat (fun b => BlockIndex.cons b ⟨0, 0, 0⟩) 111 (.genesis ⟨0, 0, 0⟩)) 0 =
        .error (.abort "nHeight >= params.DifficultyAdjustmentInterval()") :=
  have h : (Nat.repeat (fun b => BlockIndex.cons b ⟨0, 0, 0⟩) 111 (.genesis ⟨0, 0, 0⟩)).nHeight =
      111 := BlockIndex.nHeight_repeat_cons _ _ 111
  ⟨by omega, by omega, getNextWorkRequired_main_aborts _ _ (by omega) (by omega)⟩

/-- **On main, retargeting returns at every parent outside `111 .. 2015`.**
Source: `src/pow.cpp` `GetNextWorkRequired`; `src/chainparams.cpp` `CMainParams`
Kind: T -/
theorem getNextWorkRequired_main_ok (pindexPrev : BlockIndex) (pblockTime : UInt32)
    (h : pindexPrev.nHeight < 111 ∨ 2016 ≤ pindexPrev.nHeight) :
    ∃ c, getNextWorkRequired main pindexPrev pblockTime = .ok c :=
  getNextWorkRequired_ok legacyRuleOK_main cashRuleOK_main fun ⟨_, hw⟩ => by
    rw [cashIntervalFails_main_iff] at hw
    omega

/-- **On testnet and regtest, retargeting returns at every parent and for every header.**
Source: `src/pow.cpp` `GetNextWorkRequired`; `src/chainparams.cpp` `CTestNetParams`,
`CRegTestParams`
Kind: T -/
theorem getNextWorkRequired_testnet_regtest_ok :
    (∀ (pindexPrev : BlockIndex) (pblockTime : UInt32),
      ∃ c, getNextWorkRequired testnet pindexPrev pblockTime = .ok c) ∧
    (∀ (pindexPrev : BlockIndex) (pblockTime : UInt32),
      ∃ c, getNextWorkRequired regtest pindexPrev pblockTime = .ok c) := by
  constructor
  · intro pindexPrev pblockTime
    exact getNextWorkRequired_ok legacyRuleOK_testnet cashRuleOK_testnet fun ⟨_, hw⟩ =>
      not_cashIntervalFails_testnet pindexPrev pblockTime hw
  · -- regtest never retargets
    intro pindexPrev pblockTime
    exact ⟨_, rfl⟩

end BwsCoin.Pow
