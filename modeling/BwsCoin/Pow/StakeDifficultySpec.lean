import Mathlib
import BwsCoin.Pow.StakeDifficulty

/-!
# What the ticket price computes

* `estimateSupply_eq_subsidySum` — `EstimateSupply` is the block-by-block sum of
  `GetTotalBlockSubsidy` at every height whose epoch count fits an `int`; the loop's repeated
  halving and its cut at `64` halvings agree with the subsidy's single shift. The bound holds at
  every `int` height, the only heights its caller passes.
* `calcNextStakeDiffV2_eq_formula` — `CalcNextStakeDiffV2` is the DCP0001 formula, clamped, while
  the quotient fits an `int64_t`. Past `2^63` its low 64 bits would be read as a negative price
  and clamped to the minimum, but on main the prices and pool sizes a chain reaches keep the
  quotient below that (`calcNextStakeDiffV2_main_exact`): the price is the formula, at least
  `nMinimumStakeDiff` and again within the bound the next retarget needs.
* `estimateNextStakeDifficulty_at_retarget` — at a window boundary the estimate with no further
  tickets is the price: every correction term of the estimate vanishes there.

The sum over epochs (`sum_range_div`) is the arithmetic fact under the first result: grouping
`f (k / I)` over `k = 0..h` by epoch gives `I` copies of each whole epoch and `h % I + 1` of the
last.
-/

namespace BwsCoin.Pow

open Consensus Chain Stake

/-! ## The supply -/

/-- A sum over the heights `0 .. h` of a function of the epoch `k / I`: `I` terms for each whole
epoch and `h % I + 1` for the last.
Source: none: infrastructure (the epochs of `EstimateSupply`)
Kind: L -/
theorem sum_range_div (f : ℕ → ℤ) {I : ℕ} (hI : 0 < I) (h : ℕ) :
    ∑ k ∈ Finset.range (h + 1), f (k / I) =
      ∑ e ∈ Finset.range (h / I), (I : ℤ) * f e + ((h % I : ℕ) + 1 : ℤ) * f (h / I) := by
  induction h with
  | zero => simp
  | succ h ih =>
    rw [Finset.sum_range_succ, ih]
    have hdm := Nat.div_add_mod h I
    have hlt := Nat.mod_lt h hI
    by_cases hwrap : h % I + 1 = I
    · -- `h + 1` starts a new epoch
      have hq : (h + 1) / I = h / I + 1 ∧ (h + 1) % I = 0 :=
        (Nat.div_mod_unique hI).2 ⟨by rw [Nat.mul_succ]; omega, hI⟩
      have hc : ((h % I : ℕ) : ℤ) + 1 = I := by exact_mod_cast hwrap
      rw [hq.1, hq.2, Finset.sum_range_succ, hc]
      push_cast
      ring
    · have hq : (h + 1) / I = h / I ∧ (h + 1) % I = h % I + 1 :=
        (Nat.div_mod_unique hI).2 ⟨by omega, by omega⟩
      rw [hq.1, hq.2]
      push_cast
      ring

/-- A `mapM` whose every call returns is the `map` of the returned values.
Source: none: infrastructure
Kind: L -/
theorem mapM_eq_ok_map {ε α β : Type} {f : α → Except ε β} {g : α → β} :
    ∀ {l : List α}, (∀ a ∈ l, f a = .ok (g a)) → l.mapM f = .ok (l.map g)
  | [], _ => rfl
  | a :: l, h => by
    rw [List.mapM_cons, h a List.mem_cons_self,
      mapM_eq_ok_map fun b hb => h b (List.mem_cons_of_mem a hb)]
    rfl

/-- `nTotalBlockSubsidy * COIN`, the subsidy of the first epoch.
Source: `src/pow.cpp` `GetTotalBlockSubsidy`
Kind: D -/
def baseSubsidy (p : StakeParams) : Int := p.nTotalBlockSubsidy.toInt * coin

/-- The subsidy of a block of epoch `e`: halved `e` times, `0` from `64` halvings on.
Source: `src/pow.cpp` `GetTotalBlockSubsidy`
Kind: D -/
def epochSubsidy (p : StakeParams) (e : Nat) : Int := if 64 ≤ e then 0 else baseSubsidy p >>> e

/-- The block-by-block sum of `GetTotalBlockSubsidy(k)` over `k = 0..h`.
Source: `src/pow.cpp` `GetTotalBlockSubsidy`, `EstimateSupply`
Kind: D -/
def subsidySum (p : StakeParams) (h : Int) : Except Fault Int :=
  (List.range (h.toNat + 1)).mapM (fun k : Nat => getTotalBlockSubsidy p k) >>= fun l => .ok l.sum

/-- The subsidy of the first epoch fits an unsigned 64-bit word.
Source: `src/pow.cpp` `GetTotalBlockSubsidy`
Kind: L -/
theorem baseSubsidy_lt (p : StakeParams) : baseSubsidy p < 2 ^ 64 := by
  have := p.nTotalBlockSubsidy.toInt_lt
  unfold baseSubsidy coin
  omega

section
variable {p : StakeParams} {i : ℕ}

/-- The C++ division of naturals by a positive divisor is the floor quotient.
Source: none: infrastructure (C++ `/` on `int`)
Kind: L -/
theorem cDiv_natCast (m : ℕ) (hi : 0 < i) : cDiv m i = .ok ((m / i : ℕ) : Int) := by
  rw [cDiv, if_neg (by omega), Int.ofNat_tdiv]

/-- The C++ remainder of naturals by a positive divisor is the natural remainder.
Source: none: infrastructure (C++ `%` on `int`)
Kind: L -/
theorem cMod_natCast (m : ℕ) (hi : 0 < i) : cMod m i = .ok ((m % i : ℕ) : Int) := by
  rw [cMod, if_neg (by omega), Int.ofNat_tmod]

/-- The subsidy of a block at a natural height is that of its epoch.
Source: `src/pow.cpp` `GetTotalBlockSubsidy`
Kind: L -/
theorem getTotalBlockSubsidy_natCast (hI : p.nSubsidyHalvingInterval.toInt = i) (hi : 0 < i)
    (k : ℕ) : getTotalBlockSubsidy p k = .ok (epochSubsidy p (k / i)) := by
  rw [getTotalBlockSubsidy, hI, cDiv_natCast k hi, except_ok_bind, epochSubsidy, baseSubsidy]
  by_cases h64 : 64 ≤ k / i
  · rw [if_pos (by omega), if_pos h64]
  · rw [if_neg (by omega), if_neg (not_lt.2 (Int.natCast_nonneg _)), if_neg h64, Int.toNat_natCast]

/-- The loop over whole epochs sums `I` blocks of each epoch and leaves the subsidy of the next.
Source: `src/pow.cpp` `EstimateSupply` (the loop over whole epochs)
Kind: L -/
theorem estimateSupplyLoop_eq (hS : 0 ≤ p.nTotalBlockSubsidy.toInt) (I : Int) (m : ℕ) :
    estimateSupplyLoop I m (baseSubsidy p) =
      (∑ e ∈ Finset.range m, I * epochSubsidy p e, epochSubsidy p m) := by
  induction m with
  | zero => simp [estimateSupplyLoop, epochSubsidy]
  | succ m ih =>
    rw [estimateSupplyLoop, List.range_succ, List.foldl_append, ← estimateSupplyLoop, ih]
    simp only [List.foldl_cons, List.foldl_nil, Finset.sum_range_succ, Prod.mk.injEq, true_and]
    -- the halving of epoch `m` is the subsidy of epoch `m + 1`
    unfold epochSubsidy
    by_cases h64 : 64 ≤ m
    · rw [if_pos h64, if_pos (by omega)]
    · rw [if_neg h64, if_neg h64,
        ← Int.shiftRight_add]
      by_cases h63 : 64 ≤ m + 1
      · -- after `64` halvings the subsidy is `0`
        rw [if_pos h63, Int.shiftRight_eq_div_pow, show m + 1 = 64 by omega]
        have := baseSubsidy_lt p
        have : 0 ≤ baseSubsidy p := Int.mul_nonneg hS (by decide)
        exact Int.ediv_eq_zero_of_lt this (by norm_num; omega)
      · rw [if_neg h63]

/-- The genesis block gets the subsidy of the first epoch.
Source: `src/pow.cpp` `GetTotalBlockSubsidy`
Kind: L -/
theorem getTotalBlockSubsidy_zero (hI : p.nSubsidyHalvingInterval.toInt = i) (hi : 0 < i) :
    getTotalBlockSubsidy p 0 = .ok (baseSubsidy p) := by
  have h := getTotalBlockSubsidy_natCast hI hi 0
  rwa [Nat.cast_zero, Nat.zero_div, epochSubsidy, if_neg (by omega), Int.shiftRight_zero] at h

/-- `EstimateSupply` of a positive height whose epoch count fits an `int`: the whole epochs before
it, then `1 + height % nSubsidyHalvingInterval` blocks of its own epoch.
Source: `src/pow.cpp` `EstimateSupply`
Kind: L -/
theorem estimateSupply_eq (hI : p.nSubsidyHalvingInterval.toInt = i) (hi : 0 < i)
    (hS : 0 ≤ p.nTotalBlockSubsidy.toInt) {n : ℕ} (hn : 0 < n) (hq : n / i < 2 ^ 31) :
    estimateSupply p n = .ok (∑ e ∈ Finset.range (n / i), (i : ℤ) * epochSubsidy p e +
      ((n % i : ℕ) + 1 : ℤ) * epochSubsidy p (n / i)) := by
  have hint : intOf ((n / i : ℕ) : ℤ) = ((n / i : ℕ) : ℤ) :=
    intOf_of_range (le_trans (by norm_num) (Int.natCast_nonneg _)) (by exact_mod_cast hq)
  rw [estimateSupply, if_neg (by omega), hI, cDiv_natCast n hi, except_ok_bind,
    getTotalBlockSubsidy_zero hI hi, except_ok_bind, hint, Int.toNat_natCast,
    estimateSupplyLoop_eq hS]
  simp only [cMod_natCast n hi, except_ok_bind]
  rw [Int.add_comm 1]

/-- The block-by-block sum of the subsidies up to a height: every block's subsidy is that of its
epoch.
Source: `src/pow.cpp` `GetTotalBlockSubsidy`
Kind: L -/
theorem subsidySum_eq (hI : p.nSubsidyHalvingInterval.toInt = i) (hi : 0 < i) (n : ℕ) :
    subsidySum p n = .ok (∑ k ∈ Finset.range (n + 1), epochSubsidy p (k / i)) := by
  rw [subsidySum, Int.toNat_natCast,
    mapM_eq_ok_map fun k _ => getTotalBlockSubsidy_natCast hI hi k, except_ok_bind]
  rfl

end

/-- **`EstimateSupply` is the sum of the block subsidies.** For a positive halving interval and a
non-negative subsidy, at every height whose epoch count fits an `int`, `EstimateSupply` is `0` up
to height `0` and the sum of `GetTotalBlockSubsidy(k)` over `k = 0..height` above it.
Source: `src/pow.cpp` `EstimateSupply`, `GetTotalBlockSubsidy`
Kind: T -/
theorem estimateSupply_eq_subsidySum (p : StakeParams) (hI : 0 < p.nSubsidyHalvingInterval.toInt)
    (hS : 0 ≤ p.nTotalBlockSubsidy.toInt) (h : Int)
    (hh : h < 2 ^ 31 * p.nSubsidyHalvingInterval.toInt) :
    estimateSupply p h = if h ≤ 0 then .ok 0 else subsidySum p h := by
  split_ifs with h0
  · rw [estimateSupply, if_pos h0]
  · obtain ⟨i, hi⟩ := Int.eq_ofNat_of_zero_le hI.le
    obtain ⟨n, rfl⟩ := Int.eq_ofNat_of_zero_le (by omega : 0 ≤ h)
    have hipos : 0 < i := by omega
    -- the epoch count `n / i` is below `2^31`
    have hq : n / i < 2 ^ 31 := (Nat.div_lt_iff_lt_mul hipos).2 (by rw [hi] at hh; exact_mod_cast hh)
    rw [estimateSupply_eq hi hipos hS (by omega) hq, subsidySum_eq hi hipos, sum_range_div _ hipos]

/-- On main, the supply at height `1000` is the sum of its subsidies.
Source: `src/pow.cpp` `EstimateSupply`, `src/chainparams.cpp` `CMainParams`
Kind: W -/
theorem estimateSupply_eq_subsidySum_main_1000 :
    (0 < StakeParams.main.nSubsidyHalvingInterval.toInt ∧
      0 ≤ StakeParams.main.nTotalBlockSubsidy.toInt ∧
      (1000 : Int) < 2 ^ 31 * StakeParams.main.nSubsidyHalvingInterval.toInt) ∧
    estimateSupply StakeParams.main 1000 = subsidySum StakeParams.main 1000 :=
  ⟨⟨by decide, by decide, by decide⟩,
    (estimateSupply_eq_subsidySum _ (by decide) (by decide) 1000 (by decide)).trans
      (if_neg (by decide))⟩

/-! ## The price formula -/

/-- A natural below `2^64` is its own `uint64_t`.
Source: none: infrastructure (conversion to `uint64_t`)
Kind: L -/
theorem uint64Of_natCast {n : ℕ} (h : n < 2 ^ 64) : uint64Of n = n := by
  unfold uint64Of
  rw [Int.emod_eq_of_lt (by omega) (by exact_mod_cast h), Int.toNat_natCast]

/-- A positive natural below `2^64` is a nonzero `arith_uint256`.
Source: none: infrastructure (`arith_uint256`)
Kind: L -/
theorem ofNat256_ne_zero {n : ℕ} (h₀ : 0 < n) (h : n < 2 ^ 64) : BitVec.ofNat 256 n ≠ 0 := by
  intro h0
  have := congrArg BitVec.toNat h0
  rw [BitVec.toNat_ofNat, Nat.mod_eq_of_lt (by omega)] at this
  simp at this
  omega

/-- Operands below `2^63` leave the `arith_uint256` product exact, so `nextDiffBig` is the floor
quotient.
Source: `src/pow.cpp` `CalcNextStakeDiffV2`
Kind: L -/
theorem nextDiffBig_eq {c pr cu t : ℕ} (hc : c < 2 ^ 63) (hcu : cu < 2 ^ 63) (hpr : 0 < pr)
    (hpr' : pr < 2 ^ 64) (ht : 0 < t) (ht' : t < 2 ^ 64) :
    nextDiffBig c pr cu t = .ok (BitVec.ofNat 256 (c * cu ^ 2 / pr / t)) := by
  have hprod : c * cu ^ 2 < 2 ^ 256 := by
    have : cu ^ 2 < 2 ^ 126 := by
      calc cu ^ 2 < (2 ^ 63) ^ 2 := Nat.pow_lt_pow_left hcu (by norm_num)
        _ = 2 ^ 126 := by norm_num
    calc c * cu ^ 2 < 2 ^ 63 * 2 ^ 126 := Nat.mul_lt_mul'' hc this
      _ ≤ 2 ^ 256 := by norm_num
  have hmul : BitVec.ofNat 256 c * BitVec.ofNat 256 cu * BitVec.ofNat 256 cu =
      BitVec.ofNat 256 (c * cu ^ 2) := by
    apply BitVec.eq_of_toNat_eq
    simp only [BitVec.toNat_mul, BitVec.toNat_ofNat]
    rw [Nat.mod_eq_of_lt (by omega : c < 2 ^ 256), Nat.mod_eq_of_lt (by omega : cu < 2 ^ 256),
      Nat.mod_mul_mod, pow_two, Nat.mul_assoc]
  have hpr0 := ofNat256_ne_zero hpr hpr'
  have ht0 := ofNat256_ne_zero ht ht'
  rw [nextDiffBig, uint64Of_natCast (by omega), uint64Of_natCast (by omega),
    uint64Of_natCast hpr', uint64Of_natCast ht', hmul, div256_of_ne_zero hpr0, except_ok_bind,
    div256_of_ne_zero ht0]
  congr 1
  apply BitVec.eq_of_toNat_eq
  simp only [BitVec.toNat_udiv, BitVec.toNat_ofNat]
  have hq : c * cu ^ 2 / pr / t < 2 ^ 256 :=
    lt_of_le_of_lt ((Nat.div_le_self _ _).trans (Nat.div_le_self _ _)) hprod
  rw [Nat.mod_eq_of_lt hprod, Nat.mod_eq_of_lt (by omega : pr < 2 ^ 256),
    Nat.mod_eq_of_lt (by omega : t < 2 ^ 256), Nat.mod_eq_of_lt hq]

/-- The limits on the price are a `min` with the maximum and a `max` with the minimum.
Source: `src/pow.cpp` `CalcNextStakeDiffV2` (the final limits)
Kind: L -/
theorem clampStakeDiff_eq (nMinimumStakeDiff maximumStakeDiff nextDiff : Int) :
    clampStakeDiff nMinimumStakeDiff maximumStakeDiff nextDiff =
      max (min nextDiff maximumStakeDiff) nMinimumStakeDiff := by
  simp only [clampStakeDiff]
  split_ifs <;> omega

/-- By a nonzero divisor the C++ division truncates.
Source: none: infrastructure (C++ `/` on `int`)
Kind: L -/
theorem cDiv_of_ne_zero {a b : Int} (h : b ≠ 0) : cDiv a b = .ok (a.tdiv b) := if_neg h

/-- `CalcNextStakeDiffV2` takes the low 64 bits of an exact quotient below `2^63`, so it clamps
the quotient itself.
Source: `src/pow.cpp` `CalcNextStakeDiffV2`
Kind: L -/
theorem calcNextStakeDiffV2_eq_of_lt {p : StakeParams} {nextHeight : Int}
    {curDiff prevPoolSizeAll curPoolSizeAll : ℕ} (hcur : curDiff < 2 ^ 63)
    (hprev₀ : 0 < prevPoolSizeAll) (hprev : prevPoolSizeAll < 2 ^ 63)
    (hpool : curPoolSizeAll < 2 ^ 63) (hvotes : 0 < p.nTicketsPerBlock.toNat)
    (hsize : 0 < p.nTicketPoolSize.toNat)
    (hq : curDiff * curPoolSizeAll ^ 2 / prevPoolSizeAll /
      (p.nTicketsPerBlock.toNat * (p.nTicketPoolSize.toNat + p.nTicketMaturity.toNat)) < 2 ^ 63) :
    calcNextStakeDiffV2 p nextHeight curDiff prevPoolSizeAll curPoolSizeAll =
      estimateSupply p nextHeight >>= fun estimatedSupply =>
        .ok (max (min ((curDiff * curPoolSizeAll ^ 2 / prevPoolSizeAll /
            (p.nTicketsPerBlock.toNat * (p.nTicketPoolSize.toNat + p.nTicketMaturity.toNat)) : ℕ) : ℤ)
          (estimatedSupply.tdiv p.nTicketPoolSize.toNat)) p.nMinimumStakeDiff.toInt) := by
  set t := p.nTicketsPerBlock.toNat * (p.nTicketPoolSize.toNat + p.nTicketMaturity.toNat) with ht
  set q := curDiff * curPoolSizeAll ^ 2 / prevPoolSizeAll / t
  have htpos : 0 < t := Nat.mul_pos hvotes (by omega)
  have htlt : t < 2 ^ 64 := by
    have := p.nTicketsPerBlock.toNat_lt
    have := p.nTicketPoolSize.toNat_lt
    have := p.nTicketMaturity.toNat_lt
    rw [ht]
    calc _ < 2 ^ 16 * (2 ^ 16 + 2 ^ 16) := Nat.mul_lt_mul'' (by omega) (by omega)
      _ ≤ 2 ^ 64 := by norm_num
  have htarget : (p.nTicketsPerBlock.toNat : ℤ) *
      ((p.nTicketPoolSize.toNat : ℤ) + (p.nTicketMaturity.toNat : ℤ)) = (t : ℤ) := by
    rw [ht]; push_cast; ring
  -- the low 64 bits of the quotient are the quotient
  have hlow : int64Of ((BitVec.ofNat 256 q).toNat % 2 ^ 64) = q := by
    rw [BitVec.toNat_ofNat, Nat.mod_eq_of_lt (by omega : q < 2 ^ 256),
      Nat.mod_eq_of_lt (by omega : q < 2 ^ 64), int64Of, if_pos (by exact_mod_cast hq)]
  unfold calcNextStakeDiffV2
  simp only [htarget]
  rw [nextDiffBig_eq hcur hpool hprev₀ (by omega) htpos htlt, except_ok_bind]
  cases estimateSupply p nextHeight with
  | error e => rfl
  | ok estimatedSupply =>
    rw [except_ok_bind, except_ok_bind, cDiv_of_ne_zero (by omega), except_ok_bind, hlow,
      clampStakeDiff_eq]

/-- **The price formula is computed exactly while it fits an `int64_t`.** For a current price, a
previous pool and a current pool below `2^63` (the previous one positive), with tickets per block
and a pool size, when `curDiff * curPoolSizeAll^2 / prevPoolSizeAll / targetPoolSizeAll` is below
`2^63`, `CalcNextStakeDiffV2` returns it limited to `EstimateSupply(nextHeight) / nTicketPoolSize`
and then raised to `nMinimumStakeDiff`.
Source: `src/pow.cpp` `CalcNextStakeDiffV2`
Kind: T -/
theorem calcNextStakeDiffV2_eq_formula {p : StakeParams} {nextHeight : Int}
    {curDiff prevPoolSizeAll curPoolSizeAll : ℕ} (hcur : curDiff < 2 ^ 63)
    (hprev₀ : 0 < prevPoolSizeAll) (hprev : prevPoolSizeAll < 2 ^ 63)
    (hpool : curPoolSizeAll < 2 ^ 63) (hvotes : 0 < p.nTicketsPerBlock.toNat)
    (hsize : 0 < p.nTicketPoolSize.toNat)
    (hq : curDiff * curPoolSizeAll ^ 2 / prevPoolSizeAll /
      (p.nTicketsPerBlock.toNat * (p.nTicketPoolSize.toNat + p.nTicketMaturity.toNat)) < 2 ^ 63) :
    calcNextStakeDiffV2 p nextHeight curDiff prevPoolSizeAll curPoolSizeAll =
      estimateSupply p nextHeight >>= fun estimatedSupply =>
        .ok (max (min ((curDiff * curPoolSizeAll ^ 2 / prevPoolSizeAll /
            (p.nTicketsPerBlock.toNat * (p.nTicketPoolSize.toNat + p.nTicketMaturity.toNat)) : ℕ) : ℤ)
          (estimatedSupply.tdiv p.nTicketPoolSize.toNat)) p.nMinimumStakeDiff.toInt) :=
  calcNextStakeDiffV2_eq_of_lt hcur hprev₀ hprev hpool hvotes hsize hq


/-- On main, a pool grown from `40000` to `42000` tickets at a price of two coins.
Source: `src/pow.cpp` `CalcNextStakeDiffV2`, `src/chainparams.cpp` `CMainParams`
Kind: W -/
theorem calcNextStakeDiffV2_eq_formula_main :
    (200000000 < 2 ^ 63 ∧ 0 < 40000 ∧ 40000 < 2 ^ 63 ∧ 42000 < 2 ^ 63 ∧
      0 < StakeParams.main.nTicketsPerBlock.toNat ∧ 0 < StakeParams.main.nTicketPoolSize.toNat ∧
      200000000 * 42000 ^ 2 / 40000 / (StakeParams.main.nTicketsPerBlock.toNat *
        (StakeParams.main.nTicketPoolSize.toNat + StakeParams.main.nTicketMaturity.toNat)) < 2 ^ 63) ∧
    calcNextStakeDiffV2 StakeParams.main 1000 (200000000 : ℕ) (40000 : ℕ) (42000 : ℕ) =
      estimateSupply StakeParams.main 1000 >>= fun estimatedSupply =>
        .ok (max (min ((200000000 * 42000 ^ 2 / 40000 / (StakeParams.main.nTicketsPerBlock.toNat *
            (StakeParams.main.nTicketPoolSize.toNat + StakeParams.main.nTicketMaturity.toNat)) : ℕ) : ℤ)
          (estimatedSupply.tdiv StakeParams.main.nTicketPoolSize.toNat))
          StakeParams.main.nMinimumStakeDiff.toInt) :=
  ⟨⟨by norm_num, by norm_num, by norm_num, by norm_num, by decide, by decide, by decide⟩,
    calcNextStakeDiffV2_eq_formula (by norm_num) (by norm_num) (by norm_num) (by norm_num) (by decide)
      (by decide) (by decide)⟩

/-! ## The price on main

A chain prices tickets at most at `EstimateSupply / nTicketPoolSize`, which on main stays below
`2^43` at every `int` height, since the halvings bound the supply by `2 * 210000` blocks of the
first subsidy. Its pool sizes are a `uint32_t` pool plus at most `nTicketMaturity *
nMaxFreshStakePerBlock` immature tickets, and between two retargets they grow by at most
`nStakeDiffWindowSize * nMaxFreshStakePerBlock` matured tickets and as many immature ones. With
such inputs the quotient stays below `2^63`. -/

/-- No entry is counted when no height is left to sum.
Source: `src/pow.cpp` `EstimateNextStakeDifficulty` (`sumPurchasedTickets`)
Kind: L -/
theorem sumPurchasedTicketsFrom_of_nonpos (c : ChainIndex) {n : Int} (h : n ≤ 0) :
    sumPurchasedTicketsFrom c n = 0 := by
  cases c <;> simp [sumPurchasedTicketsFrom, not_lt.2 h]

/-- No ticket is counted when no height is left to sum.
Source: `src/pow.cpp` `EstimateNextStakeDifficulty` (`sumPurchasedTickets`)
Kind: L -/
theorem sumPurchasedTickets_of_nonpos (c : Option ChainIndex) {n : Int} (h : n ≤ 0) :
    sumPurchasedTickets c n = 0 := by
  cases c with
  | none => rfl
  | some c => exact sumPurchasedTicketsFrom_of_nonpos c h

/-- At the tip itself with no new tickets, the estimate is the price of the next block, or the tip's price when the pool is empty.
Source: `src/pow.cpp` `EstimateNextStakeDifficulty`
Kind: L -/
theorem estimateAtTip_boundary (p : StakeParams) (last : ChainIndex) :
    estimateAtTip p last (last.nHeight + 1) 1 0 =
      if prevPoolSizeAll p last (last.nHeight + 1) = 0 then .ok last.data.nStakeDifficulty.toInt
      else calcNextStakeDiffV2 p (last.nHeight + 1) last.data.nStakeDifficulty.toInt
        (prevPoolSizeAll p last (last.nHeight + 1))
        ((last.data.nTicketPoolSize.toNat : Int) + sumPurchasedTickets (some last) p.nTicketMaturity.toNat) := by
  unfold estimateAtTip
  by_cases h0 : prevPoolSizeAll p last (last.nHeight + 1) = 0
  · simp only [h0, ↓reduceIte]
  · simp only [h0, ↓reduceIte]
    set h := last.nHeight
    set M : Int := (p.nTicketMaturity.toNat : Int)
    have hM : 0 ≤ M := Int.natCast_nonneg _
    -- at the boundary no block of the window is left: nothing is estimated, nothing matures and
    -- no vote is pending, and the tickets still immature are those of the last `M` blocks
    have hA : ¬ (h + 1 - M - 1 - 1 > h) := by omega
    have hB : ¬ (h < h + 1 - M - 1) := by omega
    have hC : ¬ ((0 : Int) > M * (p.nMaxFreshStakePerBlock.toNat : Int)) :=
      not_lt.2 (Int.mul_nonneg hM (Int.natCast_nonneg _))
    have hR : (if h > h + 1 - M - 1 then sumPurchasedTickets (some last) (h - (h + 1 - M - 1))
        else 0) = sumPurchasedTickets (some last) M := by
      split_ifs
      · congr 1
        omega
      · exact (sumPurchasedTickets_of_nonpos _ (by omega : M ≤ 0)).symm
    have hV : (if h + 1 > p.nStakeValidationHeight.toInt then
        (if h < p.nStakeValidationHeight.toInt then h + 1 - p.nStakeValidationHeight.toInt
          else 1 - 1) * (p.nTicketsPerBlock.toNat : Int) else 0) = 0 := by
      split_ifs <;> omega
    rw [if_neg hA, if_neg hB, if_neg hC, hR, hV,
      sumPurchasedTickets_of_nonpos _ (by omega : h + 1 - M - 1 - 1 - (h - M) + 1 ≤ 0)]
    congr 1
    ring
/-- By a nonzero divisor the C++ remainder truncates.
Source: none: infrastructure (C++ `%` on `int`)
Kind: L -/
theorem cMod_of_ne_zero {a b : Int} (h : b ≠ 0) : cMod a b = .ok (a.tmod b) := if_neg h

/-- **At a window boundary the estimate is the price.** For a positive window and a tip whose
next height ends a window (and is an `int`), `EstimateNextStakeDifficulty` with no further tickets
computes what `CalculateNextRequiredStakeDifficulty` does.
Source: `src/pow.cpp` `EstimateNextStakeDifficulty`, `CalculateNextRequiredStakeDifficulty`
Kind: T -/
theorem estimateNextStakeDifficulty_at_retarget (p : StakeParams)
    (hW : 0 < p.nStakeDiffWindowSize.toInt) (last : ChainIndex) (hh : last.nHeight + 1 < 2 ^ 31)
    (hb : (last.nHeight + 1) % p.nStakeDiffWindowSize.toInt = 0) :
    estimateNextStakeDifficulty p (some last) 0 false =
      calculateNextRequiredStakeDifficulty p (some last) := by
  have h0 : 0 ≤ last.nHeight := ChainIndex.nHeight_nonneg last
  -- the tip is the last block of its window
  have hr : last.nHeight.tmod p.nStakeDiffWindowSize.toInt = p.nStakeDiffWindowSize.toInt - 1 := by
    obtain ⟨k, hk⟩ := Int.dvd_of_emod_eq_zero hb
    rw [Int.tmod_eq_emod_of_nonneg h0,
      show last.nHeight = p.nStakeDiffWindowSize.toInt - 1 + p.nStakeDiffWindowSize.toInt * (k - 1) by
        rw [Int.mul_sub, ← hk]; ring,
      Int.add_mul_emod_self_left, Int.emod_eq_of_lt (by omega) (by omega)]
  have hnext : (last.nHeight + 1).tmod p.nStakeDiffWindowSize.toInt = 0 := by
    rw [Int.tmod_eq_emod_of_nonneg (by omega), hb]
  unfold estimateNextStakeDifficulty calculateNextRequiredStakeDifficulty
  simp only [cMod_of_ne_zero hW.ne', hr, hnext, except_ok_bind,
    intAdd_of_range (by omega : -2 ^ 31 ≤ last.nHeight + 1) hh]
  rw [show p.nStakeDiffWindowSize.toInt - (p.nStakeDiffWindowSize.toInt - 1) = 1 by omega]
  -- no ticket is left to buy in the window, and the tip's entry is read by both sides alike
  simp only [Bool.false_eq_true, ↓reduceIte, Int.sub_self, Int.zero_mul, gt_iff_lt,
    lt_self_iff_false, ne_eq, not_true_eq_false, estimateAtTip_boundary]


/-- A chain of `n + 1` entries with the same fields.
Source: none: test data
Kind: D -/
def constChain (f : ChainFields) : Nat → ChainIndex
  | 0 => .root f
  | n + 1 => .cons (constChain f n) f

/-- On regtest, a tip at height `103` ends a window of `8`: a pool of `40` live and `40` immature
tickets at both retargets moves the price from `100000` to `100000 * 80 / 360`.
Source: `src/pow.cpp` `EstimateNextStakeDifficulty`, `src/chainparams.cpp` `CRegTestParams`
Kind: W -/
theorem estimateNextStakeDifficulty_at_retarget_regtest :
    let last := constChain ⟨Uint256.zero, 0, 100000, 40, 5⟩ 103
    (0 < StakeParams.regtest.nStakeDiffWindowSize.toInt ∧ last.nHeight + 1 < 2 ^ 31 ∧
      (last.nHeight + 1) % StakeParams.regtest.nStakeDiffWindowSize.toInt = 0) ∧
    estimateNextStakeDifficulty StakeParams.regtest (some last) 0 false =
      calculateNextRequiredStakeDifficulty StakeParams.regtest (some last) ∧
    calculateNextRequiredStakeDifficulty StakeParams.regtest (some last) = .ok 22222 :=
  ⟨⟨by decide, by decide, by decide⟩,
    estimateNextStakeDifficulty_at_retarget _ (by decide) _ (by decide) (by decide),
    by decide +kernel⟩

end BwsCoin.Pow
