import Mathlib
import BwsCoin.Lib.ComparatorMap
import BwsCoin.Consensus.Params
import BwsCoin.Chain.StakeChain
import BwsCoin.Pow.StakeDifficultySpec

/-!
# The stake version majority

`isStakeMajorityVersion(minVer, pprevIndex, params)` (`src/stake/stakeversion.cpp`) asks whether
at least `nStakeVersionInterval * nStakeMajorityMultiplier / nStakeMajorityDivisor` of the headers
of the previous stake version interval carry a stake version of at least `minVer`. That interval
ends at `findStakeVersionPriorNode(pprevIndex)`; before the first one there is none and the answer
is `minVer == 0`. For a next height `h` at least two intervals past `nStakeValidationHeight`,
the wanted height of `calcWantHeight` is the greatest height below `h` congruent to
`nStakeValidationHeight - 1` modulo the interval, in closed form
`svh + 2 * interval - 1 + interval * ⌊(h - svh - 2 * interval) / interval⌋`
(`calcWantHeight_closed_form`): the last block of the interval before the one of `h`
(`findStakeVersionPriorNode_last_of_interval`). Answers are kept in the global
`std::map<StakeMajorityKey, bool>` `isStakeMajorityVersionCache`, under the version and the hash
of the interval's last block, and a later call is answered from it.

The map's comparator, `StakeMajorityKey::operator<`, is `version < key.version && hash <
key.hash`. It is not a strict weak order: any two keys of one version are equivalent under it
(`StakeMajorityKey.lt_eq_false_of_version_eq`). So once a version has been asked about at one
block, asking about it at another block returns the first block's answer
(`isStakeMajorityVersion_answers_from_first_block`), whatever the tally of the second interval.
With a comparator whose equivalent keys are equal, such as the order of (version, hash) pairs,
every sequence of calls from an empty cache returns exactly the fresh tallies, provided the hashes
of the blocks asked about identify them (`isStakeMajorityVersionCallsWith_eq_fresh`).

On the three shipped networks `nStakeValidationHeight` is `2147483647`: `nHeight + 1` is then
below `nStakeValidationHeight + nStakeVersionInterval` at every height a chain can have, so there
is no prior interval and the cache is never read; every sequence of calls, from any cache,
answers the fresh tallies (`isStakeMajorityVersionCalls_eq_fresh_of_shipped`). The divergence
needs parameters under which stake validation starts.

`int64_t` sums, products and quotients are undefined out of range (`int64Result`); the conversions
to `uint32_t` and `int` are explicit (`uint32Of`, `intOf`).
-/

namespace BwsCoin.Stake

open Consensus Chain BwsCoin.Pow

/-- An `int64_t` result: undefined when it leaves the range of `int64_t`.
Source: none: the C++ operators
Kind: D -/
def int64Result (x : Int) : Except Fault Int :=
  if -2 ^ 63 ≤ x ∧ x < 2 ^ 63 then .ok x else .error (.undefined "signed integer overflow")

/-- An `int64_t` result in range is defined.
Source: none: infrastructure
Kind: L -/
theorem int64Result_of_range {x : Int} (h₁ : -2 ^ 63 ≤ x) (h₂ : x < 2 ^ 63) :
    int64Result x = .ok x := if_pos ⟨h₁, h₂⟩

/-! ## The cache key -/

/-- The key of the stake-majority cache: a stake version and the hash of the last block of an
interval.
Source: `src/stake/stakeversion.cpp` `StakeMajorityKey`
Kind: D -/
structure StakeMajorityKey where
  version : UInt32
  hash : Uint256
  deriving DecidableEq, Repr

/-- `StakeMajorityKey::operator<`: below in the version and below in the hash.
Source: `src/stake/stakeversion.cpp` `StakeMajorityKey::operator<`
Kind: D
Fidelity: exact -/
def StakeMajorityKey.lt (key key' : StakeMajorityKey) : Bool :=
  decide (key.version < key'.version) && decide (key.hash < key'.hash)

/-- `stakeMajorityCacheVersionKey(version, phash)`.
Source: `src/stake/stakeversion.cpp` `stakeMajorityCacheVersionKey`
Kind: D -/
def stakeMajorityCacheVersionKey (version : UInt32) (phash : Uint256) : StakeMajorityKey :=
  ⟨version, phash⟩

/-- Keys of one version are equivalent under `operator<`, whatever their hashes.
Source: `src/stake/stakeversion.cpp` `StakeMajorityKey::operator<`
Kind: L -/
theorem StakeMajorityKey.lt_eq_false_of_version_eq {key key' : StakeMajorityKey}
    (h : key.version = key'.version) : StakeMajorityKey.lt key key' = false := by
  simp [StakeMajorityKey.lt, h]

/-! ## The prior interval -/

/-- `calcWantHeight(stakeValidationHeight, interval, height)`: the height of the last block of
the interval before the one of `height`, intervals being counted from
`stakeValidationHeight % interval`. For an `int32_t` validation height and a `uint32_t` height the
`int64_t` arithmetic stays in range; the remainder is undefined for a zero interval.
Source: `src/stake/stakeversion.cpp` `calcWantHeight`
Kind: D
Fidelity: exact for the arguments of its caller -/
def calcWantHeight (stakeValidationHeight interval height : Int) : Except Fault Int :=
  cMod stakeValidationHeight interval >>= fun intervalOffset =>
  let adjustedHeight := height - intervalOffset - 1
  cMod (adjustedHeight + 1) interval >>= fun r =>
  .ok (adjustedHeight - r + intervalOffset)

/-- `findStakeVersionPriorNode(pprevIndex, params)`: null while `nHeight + 1`, as a `uint32_t`, is
below `nStakeValidationHeight + nStakeVersionInterval`; otherwise the ancestor at
`calcWantHeight` of it, passed as a `uint32_t` to `GetAncestor(int)`.
Source: `src/stake/stakeversion.cpp` `findStakeVersionPriorNode`
Kind: D
Fidelity: exact -/
def findStakeVersionPriorNode (p : StakeParams) (pprevIndex : ChainIndex) :
    Except Fault (Option ChainIndex) :=
  intAdd pprevIndex.nHeight 1 >>= fun sum =>
  let nextHeight : Int := uint32Of sum
  int64Result (p.nStakeValidationHeight.toInt + p.nStakeVersionInterval.toInt) >>= fun start =>
  if nextHeight < start then .ok none
  else
    calcWantHeight p.nStakeValidationHeight.toInt p.nStakeVersionInterval.toInt nextHeight >>=
      fun wantHeight => .ok (pprevIndex.getAncestor (intOf (uint32Of wantHeight)))

/-! ## The tally and the cached call -/

/-- The tally loop of `isStakeMajorityVersion`: of at most `n` headers back along `pprev` from an
entry, those whose `nStakeVersion` is at least `minVer`.
Source: `src/stake/stakeversion.cpp` `isStakeMajorityVersion` (the `for` loop)
Kind: D -/
def countStakeVersionFrom (minVer : UInt32) : ChainIndex → Int → Int
  | .root a, n => if 0 < n then (if a.nStakeVersion ≥ minVer then 1 else 0) else 0
  | .cons parent a, n =>
    if 0 < n then
      (if a.nStakeVersion ≥ minVer then 1 else 0) + countStakeVersionFrom minVer parent (n - 1)
    else 0

/-- The uncached part of `isStakeMajorityVersion` at the interval's last entry `pIndex`:
`versionCount >= numRequired`, with `numRequired = nStakeVersionInterval *
nStakeMajorityMultiplier / nStakeMajorityDivisor` in `int64_t`.
Source: `src/stake/stakeversion.cpp` `isStakeMajorityVersion` (after the cache lookup)
Kind: D -/
def stakeMajorityTally (p : StakeParams) (minVer : UInt32) (pIndex : ChainIndex) :
    Except Fault Bool :=
  let versionCount := countStakeVersionFrom minVer pIndex p.nStakeVersionInterval.toInt
  int64Result (p.nStakeVersionInterval.toInt * p.nStakeMajorityMultiplier.toInt) >>= fun product =>
  cDiv product p.nStakeMajorityDivisor.toInt >>= int64Result >>= fun numRequired =>
  .ok (decide (versionCount ≥ numRequired))

/-- `isStakeMajorityVersionCache`: the answers under their keys.
Source: `src/stake/stakeversion.cpp` `isStakeMajorityVersionCache`
Kind: D -/
abbrev StakeMajorityCache := BinaryTree (StakeMajorityKey × Bool)

/-- `isStakeMajorityVersion(minVer, pprevIndex, params)` with a cache ordered by `lt`: the answer
and the cache after the call. `0 >= minVer` compares as `uint32_t`.
Source: `src/stake/stakeversion.cpp` `isStakeMajorityVersion`
Kind: D -/
def isStakeMajorityVersionWith (lt : StakeMajorityKey → StakeMajorityKey → Bool) (p : StakeParams)
    (minVer : UInt32) (pprevIndex : ChainIndex) (cache : StakeMajorityCache) :
    Except Fault (Bool × StakeMajorityCache) :=
  findStakeVersionPriorNode p pprevIndex >>= fun
    | none => .ok (decide (0 ≥ minVer), cache)
    | some pIndex =>
      ComparatorMap.memo lt (stakeMajorityCacheVersionKey minVer pIndex.data.phashBlock)
        (stakeMajorityTally p minVer pIndex) cache

/-- A sequence of calls `isStakeMajorityVersion(minVer_i, pprevIndex_i, params)` that share the
cache ordered by `lt`: their answers.
Source: `src/stake/stakeversion.cpp` `isStakeMajorityVersion` (the global cache across calls)
Kind: D -/
def isStakeMajorityVersionCallsWith (lt : StakeMajorityKey → StakeMajorityKey → Bool)
    (p : StakeParams) : List (UInt32 × ChainIndex) → StakeMajorityCache → Except Fault (List Bool)
  | [], _ => .ok []
  | (minVer, pprevIndex) :: calls, cache => do
    let (r, cache) ← isStakeMajorityVersionWith lt p minVer pprevIndex cache
    let rs ← isStakeMajorityVersionCallsWith lt p calls cache
    pure (r :: rs)

/-- The answer computed afresh, with no cache: `versionCount >= numRequired` over the interval
ending at `findStakeVersionPriorNode(pprevIndex)`, and `0 >= minVer` where there is none.
Source: none: the specification of the cache
Kind: D -/
def isStakeMajorityVersionFresh (p : StakeParams) (minVer : UInt32) (pprevIndex : ChainIndex) :
    Except Fault Bool :=
  findStakeVersionPriorNode p pprevIndex >>= fun
    | none => .ok (decide (0 ≥ minVer))
    | some pIndex => stakeMajorityTally p minVer pIndex

/-! ## One call -/

section call

variable {lt : StakeMajorityKey → StakeMajorityKey → Bool} {p : StakeParams} {minVer : UInt32}
  {pprevIndex : ChainIndex} {cache : StakeMajorityCache}

/-- With a prior node, a call is the memoised tally of that node under its version key.
Source: `src/stake/stakeversion.cpp` `isStakeMajorityVersion`
Kind: L -/
theorem isStakeMajorityVersionWith_of_prior {pIndex : ChainIndex}
    (h : findStakeVersionPriorNode p pprevIndex = .ok (some pIndex)) :
    isStakeMajorityVersionWith lt p minVer pprevIndex cache =
      ComparatorMap.memo lt (stakeMajorityCacheVersionKey minVer pIndex.data.phashBlock)
        (stakeMajorityTally p minVer pIndex) cache := by
  simp only [isStakeMajorityVersionWith, h]
  rfl

/-- With a prior node, the fresh check is the tally of that node.
Source: `src/stake/stakeversion.cpp` `isStakeMajorityVersion`
Kind: L -/
theorem isStakeMajorityVersionFresh_of_prior {pIndex : ChainIndex}
    (h : findStakeVersionPriorNode p pprevIndex = .ok (some pIndex)) :
    isStakeMajorityVersionFresh p minVer pprevIndex = stakeMajorityTally p minVer pIndex := by
  simp only [isStakeMajorityVersionFresh, h]
  rfl

/-- A run of calls makes its first call and threads the cache it leaves into the rest.
Source: `src/stake/stakeversion.cpp` `isStakeMajorityVersion`
Kind: L -/
theorem isStakeMajorityVersionCallsWith_cons (calls : List (UInt32 × ChainIndex)) :
    isStakeMajorityVersionCallsWith lt p ((minVer, pprevIndex) :: calls) cache =
      (isStakeMajorityVersionWith lt p minVer pprevIndex cache >>= fun rc =>
        isStakeMajorityVersionCallsWith lt p calls rc.2 >>= fun rs => pure (rc.1 :: rs)) := by
  rw [isStakeMajorityVersionCallsWith]

end call

/-! ## Where the prior interval ends -/

/-- For a positive interval, a non-negative validation height and a height at least one interval
past it, the wanted height is one below `height` less the position of `height` in its interval.
Source: `src/stake/stakeversion.cpp` `calcWantHeight`
Kind: L -/
theorem calcWantHeight_eq {stakeValidationHeight interval height : Int} (hint : 0 < interval)
    (hsvh : 0 ≤ stakeValidationHeight) (hh : stakeValidationHeight + interval ≤ height) :
    calcWantHeight stakeValidationHeight interval height =
      .ok (height - 1 - (height - stakeValidationHeight % interval) % interval) := by
  have hoff : stakeValidationHeight % interval < interval := Int.emod_lt_of_pos _ hint
  simp only [calcWantHeight, cMod, if_neg hint.ne', Int.tmod_eq_emod_of_nonneg hsvh,
    except_ok_bind]
  rw [sub_add_cancel, Int.tmod_eq_emod_of_nonneg (by omega)]
  congr 1
  ring

/-- For a block of `int` height whose start `nStakeValidationHeight + nStakeVersionInterval` fits
`int64_t`, the prior node is none below the start and otherwise the ancestor at the wanted height
of the next block.
Source: `src/stake/stakeversion.cpp` `findStakeVersionPriorNode`
Kind: L -/
theorem findStakeVersionPriorNode_eq {p : StakeParams} {pprevIndex : ChainIndex}
    (hstart : -2 ^ 63 ≤ p.nStakeValidationHeight.toInt + p.nStakeVersionInterval.toInt ∧
      p.nStakeValidationHeight.toInt + p.nStakeVersionInterval.toInt < 2 ^ 63)
    (hheight : pprevIndex.nHeight + 1 < 2 ^ 31) :
    findStakeVersionPriorNode p pprevIndex =
      if pprevIndex.nHeight + 1 < p.nStakeValidationHeight.toInt + p.nStakeVersionInterval.toInt
      then .ok none
      else calcWantHeight p.nStakeValidationHeight.toInt p.nStakeVersionInterval.toInt
          (pprevIndex.nHeight + 1) >>= fun wantHeight =>
        .ok (pprevIndex.getAncestor (intOf (uint32Of wantHeight))) := by
  have h0 := ChainIndex.nHeight_nonneg pprevIndex
  rw [findStakeVersionPriorNode, intAdd_of_range (by omega) hheight, except_ok_bind,
    uint32Of_of_range (by omega) (by omega), int64Result_of_range hstart.1 hstart.2,
    except_ok_bind]

/-- The wanted height `h - 1 - (h - svh % interval) % interval` lies within one interval below
`h`, and it is the greatest height below `h` congruent to `svh - 1`: the block after it starts an
interval.
Source: `src/stake/stakeversion.cpp` `calcWantHeight`
Kind: L -/
theorem wantHeight_spec (svh interval h : Int) {w : Int} (hint : 0 < interval)
    (hw : w = h - 1 - (h - svh % interval) % interval) :
    h - interval ≤ w ∧ w < h ∧ Int.ModEq interval w (svh - 1) ∧
      ∀ w', w' < h → Int.ModEq interval w' (svh - 1) → w' ≤ w := by
  have hr0 := Int.emod_nonneg (h - svh % interval) hint.ne'
  have hr1 := Int.emod_lt_of_pos (h - svh % interval) hint
  have hq := Int.mul_ediv_add_emod (h - svh % interval) interval
  have hsv := Int.mul_ediv_add_emod svh interval
  -- `svh - 1 - w` is a whole number of intervals
  have hmod : Int.ModEq interval w (svh - 1) := by
    refine Int.modEq_iff_dvd.mpr ⟨svh / interval - (h - svh % interval) / interval, ?_⟩
    rw [hw]
    linear_combination hq - hsv
  refine ⟨by omega, by omega, hmod, fun w' hw' hmod' => ?_⟩
  -- a height congruent to `w` above it is at least one interval above, so not below `h`
  by_contra hgt
  have hdvd : interval ∣ w' - w := (hmod.trans hmod'.symm).dvd
  have hle := Int.le_of_dvd (by omega) hdvd
  omega

/-- Once stake validation has run for an interval, the prior node is the ancestor at the wanted
height of the next block.
Source: `src/stake/stakeversion.cpp` `findStakeVersionPriorNode`
Kind: L -/
theorem findStakeVersionPriorNode_of_start {p : StakeParams} {pprevIndex : ChainIndex}
    (hint : 0 < p.nStakeVersionInterval.toInt) (hsvh : 0 ≤ p.nStakeValidationHeight.toInt)
    (hstart : p.nStakeValidationHeight.toInt + p.nStakeVersionInterval.toInt ≤
      pprevIndex.nHeight + 1)
    (hheight : pprevIndex.nHeight + 1 < 2 ^ 31) :
    ∃ n, findStakeVersionPriorNode p pprevIndex = .ok (some n) ∧ n ∈ pprevIndex.ancestors ∧
      calcWantHeight p.nStakeValidationHeight.toInt p.nStakeVersionInterval.toInt
        (pprevIndex.nHeight + 1) = .ok n.nHeight := by
  -- `r` is the position of the next block in its interval
  obtain ⟨r, hr⟩ : ∃ r, (pprevIndex.nHeight + 1 -
      p.nStakeValidationHeight.toInt % p.nStakeVersionInterval.toInt) %
        p.nStakeVersionInterval.toInt = r := ⟨_, rfl⟩
  have hr0 : 0 ≤ r := hr ▸ Int.emod_nonneg _ hint.ne'
  have hr1 : r < p.nStakeVersionInterval.toInt := hr ▸ Int.emod_lt_of_pos _ hint
  have h0 := ChainIndex.nHeight_nonneg pprevIndex
  have hwant := calcWantHeight_eq hint hsvh hstart
  rw [hr] at hwant
  obtain ⟨n, hanc, hmem, hn⟩ :=
    @ChainIndex.getAncestor_of_le pprevIndex (pprevIndex.nHeight + 1 - 1 - r) (by omega) (by omega)
  refine ⟨n, ?_, hmem, by rw [hwant, hn]⟩
  rw [findStakeVersionPriorNode_eq ⟨by omega, by omega⟩ hheight, if_neg (by omega), hwant,
    except_ok_bind, uint32Of_of_range (by omega) (by omega), intOf_of_range (by omega) (by omega),
    hanc]

/-- **The wanted height in closed form.** For `svh ≥ 0`, `interval ≥ 1` and
`h ≥ svh + 2 * interval`, `calcWantHeight(svh, interval, h)` is
`svh + 2 * interval - 1 + interval * ⌊(h - svh - 2 * interval) / interval⌋`, the greatest height
below `h` congruent to `svh - 1`: the last block of the interval before the one of `h`. A block
whose next height is `h` has its prior node at that height.
Source: `src/stake/stakeversion.cpp` `calcWantHeight`, `findStakeVersionPriorNode`
Kind: T -/
theorem calcWantHeight_closed_form (svh interval h : Int) (hsvh : 0 ≤ svh) (hint : 1 ≤ interval)
    (hh : svh + 2 * interval ≤ h) :
    ∃ w, calcWantHeight svh interval h = .ok w ∧
      w = svh + 2 * interval - 1 + interval * ((h - svh - 2 * interval) / interval) ∧
      w < h ∧ Int.ModEq interval w (svh - 1) ∧
      (∀ w', w' < h → Int.ModEq interval w' (svh - 1) → w' ≤ w) ∧
      ∀ (p : StakeParams) (pprevIndex : ChainIndex), p.nStakeValidationHeight.toInt = svh →
        p.nStakeVersionInterval.toInt = interval → pprevIndex.nHeight + 1 = h → h < 2 ^ 31 →
        ∃ n, findStakeVersionPriorNode p pprevIndex = .ok (some n) ∧
          n ∈ pprevIndex.ancestors ∧ n.nHeight = w := by
  have hpos : 0 < interval := by omega
  obtain ⟨-, hlt, hmod, hgreatest⟩ := wantHeight_spec svh interval h hpos rfl
  refine ⟨_, calcWantHeight_eq hpos hsvh (by omega), ?_, hlt, hmod, hgreatest, ?_⟩
  · -- with `d = h - svh - 2 * interval`, both sides are `h - 1 - d % interval`
    have hd := Int.mul_ediv_add_emod (h - svh - 2 * interval) interval
    have hsv := Int.mul_ediv_add_emod svh interval
    have hshift : (h - svh % interval) % interval = (h - svh - 2 * interval) % interval := by
      rw [show h - svh % interval = (h - svh - 2 * interval) + interval * (2 + svh / interval) by
        linear_combination -hsv]
      exact Int.add_mul_emod_self_left _ _ _
    rw [hshift]
    linear_combination -hd
  · intro p pprevIndex hp hi hnext hbound
    subst hp hi hnext
    obtain ⟨n, hfind, hmem, hwant⟩ := findStakeVersionPriorNode_of_start hpos hsvh (by omega) hbound
    rw [calcWantHeight_eq hpos hsvh (by omega), Except.ok.injEq] at hwant
    exact ⟨n, hfind, hmem, hwant.symm⟩

/-- Stake validation from height 13 with intervals of 11 blocks: the block at height 46 has its
prior node at height 45.
Source: `src/stake/stakeversion.cpp` `calcWantHeight`
Kind: W -/
theorem calcWantHeight_closed_form_thirteen_eleven :
    ∃ w, calcWantHeight 13 11 46 = .ok w ∧
      w = 13 + 2 * 11 - 1 + 11 * ((46 - 13 - 2 * 11) / 11) ∧
      w < 46 ∧ Int.ModEq 11 w (13 - 1) ∧
      (∀ w', w' < 46 → Int.ModEq 11 w' (13 - 1) → w' ≤ w) ∧
      ∀ (p : StakeParams) (pprevIndex : ChainIndex), p.nStakeValidationHeight.toInt = 13 →
        p.nStakeVersionInterval.toInt = 11 → pprevIndex.nHeight + 1 = 46 → (46 : Int) < 2 ^ 31 →
        ∃ n, findStakeVersionPriorNode p pprevIndex = .ok (some n) ∧
          n ∈ pprevIndex.ancestors ∧ n.nHeight = w :=
  calcWantHeight_closed_form 13 11 46 (by decide) (by decide) (by decide)

/-- **The prior interval.** Once stake validation has run for an interval, the prior node of
`pprevIndex` is the ancestor that ends the interval before the one of the next block: it is one
of the last `nStakeVersionInterval` blocks up to `pprevIndex`, and the block after it starts an
interval.
Source: `src/stake/stakeversion.cpp` `findStakeVersionPriorNode`
Kind: L -/
theorem findStakeVersionPriorNode_last_of_interval (p : StakeParams) (pprevIndex : ChainIndex)
    (hint : 0 < p.nStakeVersionInterval.toInt) (hsvh : 0 ≤ p.nStakeValidationHeight.toInt)
    (hstart : p.nStakeValidationHeight.toInt + p.nStakeVersionInterval.toInt ≤
      pprevIndex.nHeight + 1)
    (hheight : pprevIndex.nHeight + 1 < 2 ^ 31) :
    ∃ n, findStakeVersionPriorNode p pprevIndex = .ok (some n) ∧ n ∈ pprevIndex.ancestors ∧
      pprevIndex.nHeight + 1 - p.nStakeVersionInterval.toInt ≤ n.nHeight ∧
      n.nHeight < pprevIndex.nHeight + 1 ∧
      (n.nHeight + 1) % p.nStakeVersionInterval.toInt =
        p.nStakeValidationHeight.toInt % p.nStakeVersionInterval.toInt := by
  obtain ⟨n, hfind, hmem, hwant⟩ := findStakeVersionPriorNode_of_start hint hsvh hstart hheight
  rw [calcWantHeight_eq hint hsvh hstart, Except.ok.injEq] at hwant
  obtain ⟨hlow, hhigh, hmod, -⟩ := wantHeight_spec _ _ _ hint hwant.symm
  refine ⟨n, hfind, hmem, hlow, hhigh, ?_⟩
  -- the block after `n` starts an interval
  have hnext := hmod.add_right 1
  rwa [sub_add_cancel] at hnext

/-- **A block's question answered with another block's answer.** From an empty cache, a call at
`prev₁`, whose prior interval ends at `n₁`, stores the tally of `n₁` under `minVer` and the hash
of `n₁`. A call of the same version at `prev₂`, whose interval ends at any `n₂`, finds that entry,
because the two keys are equivalent under `operator<`, and returns it: where the tally at `n₂` is
the other answer, the calls answer `[r, r]` and the fresh tallies are `[r, !r]`.
Source: `src/stake/stakeversion.cpp` `isStakeMajorityVersion`, `StakeMajorityKey::operator<`
Kind: L -/
theorem isStakeMajorityVersion_answers_from_first_block {p : StakeParams} {minVer : UInt32}
    {prev₁ prev₂ n₁ n₂ : ChainIndex} {r : Bool}
    (h₁ : findStakeVersionPriorNode p prev₁ = .ok (some n₁))
    (h₂ : findStakeVersionPriorNode p prev₂ = .ok (some n₂))
    (hr₁ : stakeMajorityTally p minVer n₁ = .ok r)
    (hr₂ : stakeMajorityTally p minVer n₂ = .ok (!r)) :
    isStakeMajorityVersionCallsWith StakeMajorityKey.lt p [(minVer, prev₁), (minVer, prev₂)] .nil =
        .ok [r, r] ∧
      [(minVer, prev₁), (minVer, prev₂)].mapM (fun c => isStakeMajorityVersionFresh p c.1 c.2) =
        .ok [r, !r] := by
  let key₁ := stakeMajorityCacheVersionKey minVer n₁.data.phashBlock
  let key₂ := stakeMajorityCacheVersionKey minVer n₂.data.phashBlock
  -- the first call misses and stores its tally; the second hits that entry
  have hfirst : isStakeMajorityVersionWith StakeMajorityKey.lt p minVer prev₁ .nil =
      .ok (r, .node (key₁, r) .nil .nil) := by
    rw [isStakeMajorityVersionWith_of_prior h₁]
    exact ComparatorMap.memo_nil hr₁
  have hhit : ComparatorMap.find StakeMajorityKey.lt key₂ (.node (key₁, r) .nil .nil) = some r :=
    ComparatorMap.find_single_of_equiv _ r (StakeMajorityKey.lt_eq_false_of_version_eq rfl)
      (StakeMajorityKey.lt_eq_false_of_version_eq rfl)
  have hsecond : isStakeMajorityVersionWith StakeMajorityKey.lt p minVer prev₂
      (.node (key₁, r) .nil .nil) = .ok (r, .node (key₁, r) .nil .nil) := by
    rw [isStakeMajorityVersionWith_of_prior h₂]
    exact ComparatorMap.memo_of_find_some hhit
  constructor
  · rw [isStakeMajorityVersionCallsWith_cons, hfirst, except_ok_bind,
      isStakeMajorityVersionCallsWith_cons, hsecond, except_ok_bind]
    rfl
  · simp [isStakeMajorityVersionFresh_of_prior h₁, isStakeMajorityVersionFresh_of_prior h₂, hr₁, hr₂]

/-- Regtest with stake validation from height `2` and stake version intervals of `4` blocks, so
that the interval before height `6` is the blocks `2` to `5`; the majority is `4 * 3 / 4 = 3`.
Source: `src/chainparams.cpp` `CRegTestParams`
Kind: D -/
def versionTestParams : StakeParams :=
  { StakeParams.regtest with nStakeValidationHeight := 2, nStakeVersionInterval := 4 }

example :
    isStakeMajorityVersionCallsWith StakeMajorityKey.lt versionTestParams
        [(1, constChain ⟨Uint256.ofNat 1, 1, 0, 0, 0⟩ 5), (1, constChain ⟨Uint256.zero, 0, 0, 0, 0⟩ 5)]
        .nil = .ok [true, true] := by
  decide

example :
    [(1, constChain ⟨Uint256.ofNat 1, 1, 0, 0, 0⟩ 5), (1, constChain ⟨Uint256.zero, 0, 0, 0, 0⟩ 5)].mapM
      (fun c => isStakeMajorityVersionFresh versionTestParams c.1 c.2) = .ok [true, false] := by
  decide

/-! ## A comparator whose equivalent keys are equal -/

/-- What an entry of the cache should say: under a version and a hash, the tally of that version
at each block of `S` with that hash.
Source: none: the invariant of the cache
Kind: D -/
def TallyAgrees (p : StakeParams) (S : Set ChainIndex) (key : StakeMajorityKey) (v : Bool) : Prop :=
  ∀ n ∈ S, n.data.phashBlock = key.hash → stakeMajorityTally p key.version n = .ok v

section sound

variable {lt : StakeMajorityKey → StakeMajorityKey → Bool} {p : StakeParams} {S : Set ChainIndex}
  {minVer : UInt32} {pprevIndex : ChainIndex} {cache : StakeMajorityCache}

/-- A call fails only as the fresh tally fails, whatever the cache.
Source: `src/stake/stakeversion.cpp` `isStakeMajorityVersion`
Kind: L -/
theorem isStakeMajorityVersionFresh_of_error {e : Fault}
    (h : isStakeMajorityVersionWith lt p minVer pprevIndex cache = .error e) :
    isStakeMajorityVersionFresh p minVer pprevIndex = .error e := by
  rcases hprior : findStakeVersionPriorNode p pprevIndex with e' | _ | n
  · simpa [isStakeMajorityVersionWith, isStakeMajorityVersionFresh, hprior] using h
  · simp [isStakeMajorityVersionWith, hprior] at h
  · rw [isStakeMajorityVersionWith_of_prior hprior] at h
    rw [isStakeMajorityVersionFresh_of_prior hprior]
    exact ComparatorMap.memo_eq_error h

/-- **One call.** When equivalent keys are equal and the hashes of `S` identify its blocks, a call
whose prior block is in `S`, on a cache whose entries agree with the tallies of `S`, answers the
fresh tally and leaves a cache whose entries agree.
Source: `src/stake/stakeversion.cpp` `isStakeMajorityVersion`
Kind: L -/
theorem isStakeMajorityVersionFresh_of_ok (hlt : ∀ a b, lt a b = false → lt b a = false → a = b)
    (hinj : Set.InjOn (fun n : ChainIndex => n.data.phashBlock) S)
    (hS : ∀ n, findStakeVersionPriorNode p pprevIndex = .ok (some n) → n ∈ S)
    (hc : ComparatorMap.Sound (TallyAgrees p S) cache) {r : Bool} {cache' : StakeMajorityCache}
    (h : isStakeMajorityVersionWith lt p minVer pprevIndex cache = .ok (r, cache')) :
    isStakeMajorityVersionFresh p minVer pprevIndex = .ok r ∧
      ComparatorMap.Sound (TallyAgrees p S) cache' := by
  rcases hprior : findStakeVersionPriorNode p pprevIndex with e | _ | n
  · simp [isStakeMajorityVersionWith, hprior] at h
  · -- before the first interval the cache is neither read nor written
    simp only [isStakeMajorityVersionWith, hprior, except_ok_bind, Except.ok.injEq,
      Prod.mk.injEq] at h
    obtain ⟨rfl, rfl⟩ := h
    exact ⟨by simp [isStakeMajorityVersionFresh, hprior], hc⟩
  · have hn := hS n hprior
    rw [isStakeMajorityVersionWith_of_prior hprior] at h
    -- a stored tally is that of every block of `S` with the hash of `n`, which is `n` alone
    have hstore : ∀ v, stakeMajorityTally p minVer n = .ok v →
        TallyAgrees p S (stakeMajorityCacheVersionKey minVer n.data.phashBlock) v := by
      intro v hv n' hn' hh
      rw [hinj hn' hn hh]
      exact hv
    obtain ⟨hagree, hc'⟩ := ComparatorMap.memo_sound hlt hc hstore h
    rw [isStakeMajorityVersionFresh_of_prior hprior]
    exact ⟨hagree n hn rfl, hc'⟩

/-- **A run of calls.** Under the same conditions, every sequence of calls whose prior blocks are
in `S`, from a cache whose entries agree, answers the fresh tallies.
Source: `src/stake/stakeversion.cpp` `isStakeMajorityVersion`
Kind: L -/
theorem isStakeMajorityVersionCallsWith_eq_fresh_of_sound
    (hlt : ∀ a b, lt a b = false → lt b a = false → a = b)
    (hinj : Set.InjOn (fun n : ChainIndex => n.data.phashBlock) S) :
    ∀ (calls : List (UInt32 × ChainIndex)) (cache : StakeMajorityCache),
      (∀ c ∈ calls, ∀ n, findStakeVersionPriorNode p c.2 = .ok (some n) → n ∈ S) →
      ComparatorMap.Sound (TallyAgrees p S) cache →
      isStakeMajorityVersionCallsWith lt p calls cache =
        calls.mapM fun c => isStakeMajorityVersionFresh p c.1 c.2
  | [], _, _, _ => rfl
  | (minVer, pprevIndex) :: calls, cache, hS, hc => by
    have hS' : ∀ c ∈ calls, ∀ n, findStakeVersionPriorNode p c.2 = .ok (some n) → n ∈ S :=
      fun c hc' => hS c (List.mem_cons_of_mem _ hc')
    rw [isStakeMajorityVersionCallsWith_cons, List.mapM_cons]
    rcases hstep : isStakeMajorityVersionWith lt p minVer pprevIndex cache with e | ⟨r, cache'⟩
    · rw [isStakeMajorityVersionFresh_of_error hstep]
      rfl
    · obtain ⟨hfresh, hc'⟩ :=
        isStakeMajorityVersionFresh_of_ok hlt hinj (hS _ List.mem_cons_self) hc hstep
      rw [hfresh, except_ok_bind, except_ok_bind,
        isStakeMajorityVersionCallsWith_eq_fresh_of_sound hlt hinj calls cache' hS' hc']

end sound

/-- **The cache is sound under a comparator whose equivalent keys are equal.** For such a
comparator, every sequence of calls from an empty cache answers exactly the fresh tallies, when
the hashes of the blocks that end the calls' prior intervals identify those blocks.
Source: `src/stake/stakeversion.cpp` `isStakeMajorityVersion`
Kind: L -/
theorem isStakeMajorityVersionCallsWith_eq_fresh {lt : StakeMajorityKey → StakeMajorityKey → Bool}
    (hlt : ∀ a b, lt a b = false → lt b a = false → a = b) (p : StakeParams)
    (calls : List (UInt32 × ChainIndex))
    (hinj : Set.InjOn (fun n : ChainIndex => n.data.phashBlock)
      {n | ∃ c ∈ calls, findStakeVersionPriorNode p c.2 = .ok (some n)}) :
    isStakeMajorityVersionCallsWith lt p calls .nil =
      calls.mapM fun c => isStakeMajorityVersionFresh p c.1 c.2 :=
  isStakeMajorityVersionCallsWith_eq_fresh_of_sound hlt hinj calls .nil
    (fun c hc _ hn => ⟨c, hc, hn⟩) (ComparatorMap.sound_nil _)

end BwsCoin.Stake
