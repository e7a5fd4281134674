import BwsCoin.Policy.Dust
import BwsCoin.Pow.Arith

/-!
# Remunerations of ticket contributors

A vote pays the ticket's stake plus the voter subsidy back to the ticket's contributors, and a
revocation pays back the stake (`src/validation.cpp`). `CalculateGrossRemuneration` gives each
contributor the floor of its proportional share, in 256-bit fixed point. `CalculateNetRemunerations`
sorts the contributors by ascending fee limit (keeping the first in place under
`FirstContributor`), gives every contributor but the last in that order its floor share and the
last what is left of the funding, rejects a remuneration outside the money range or below the dust
threshold of `::dustRelayFee`, and then takes the fee from the remunerations under one of three
policies, capped by each contributor's limit and by the dust threshold.

Two things the function reads are not its arguments: the order `std::sort` leaves equal fee limits
in, which the standard leaves unspecified, and the node's relay setting `::dustRelayFee`. The
model takes both as arguments: the sort as any function (`StdSortContract` states what the standard
promises of it), and the fee rate as a `CFeeRate`.
-/

namespace BwsCoin.Stake

open Script BwsCoin.Pow Policy

/-- `FeeDistributionPolicy`.
Source: `src/validation.h` `enum class FeeDistributionPolicy`
Kind: D -/
inductive FeeDistributionPolicy where
  | firstContributor
  | equalFee
  | proportionalFee
  deriving DecidableEq, Repr

/-- `static_cast<CAmount>(x)` of a `uint64_t`: two's complement.
Source: none: the C++ conversion
Kind: D -/
def int64Of (x : Nat) : Int := if x < 2 ^ 63 then x else (x : Int) - 2 ^ 64

/-! ## The proportional share -/

/-- `(((arith_uint256{a} * arith_uint256{b}) << 32) / arith_uint256{d}) >> 32`, then `GetLow64()`
cast to `CAmount`: the 32-bit fixed-point share `a * b / d` that `CalculateGrossRemuneration` and
the proportional fee both compute. Each operand goes through `uint64_t` first.
Source: `src/validation.cpp` `CalculateGrossRemuneration`, `CalculateNetRemunerations`
(`ProportionalFee`)
Kind: D
Fidelity: exact; `arith_uint256` division by zero throws `uint_error` -/
def scaledShare (a b d : Int) : Except Fault Int :=
  div256 ((BitVec.ofNat 256 (uint64Of a) * BitVec.ofNat 256 (uint64Of b)) <<< 32)
      (BitVec.ofNat 256 (uint64Of d)) >>= fun result =>
    .ok (int64Of ((result >>> 32).toNat % 2 ^ 64))

/-- `CalculateGrossRemuneration(contributedAmount, totalStake, subsidy, contributionSum)`.
Source: `src/validation.cpp` `CalculateGrossRemuneration`
Kind: D
Fidelity: exact -/
def calculateGrossRemuneration (contributedAmount totalStake subsidy contributionSum : Int) :
    Except Fault Int :=
  scaledShare contributedAmount (totalStake + subsidy) contributionSum

/-! ## The sort -/

/-- A sort of indexes under a comparator, as `std::sort` is called.
Source: `src/validation.cpp` `CalculateNetRemunerations` (`std::sort`)
Kind: D -/
abbrev StdSort := (Nat → Nat → Bool) → List Nat → List Nat

/-- What the standard promises of `std::sort(first, last, comp)` for a strict weak ordering
`comp`: the range is permuted, and no element is less than one before it. Where equivalent
elements go is unspecified, and differs between standard libraries.
Source: the C++ standard, `[alg.sort]`
Kind: D -/
structure StdSortContract (sort : StdSort) : Prop where
  perm : ∀ comp l, IsStrictWeakOrder Nat (fun a b => comp a b = true) → (sort comp l).Perm l
  sorted : ∀ comp l, IsStrictWeakOrder Nat (fun a b => comp a b = true) →
    (sort comp l).Pairwise (fun a b => comp b a = false)

/-- The fee limit a contributor sets for a vote (`true`) or a revocation.
Source: `src/validation.cpp` `CalculateNetRemunerations` (`feeLimit`, the sort comparator)
Kind: D -/
def feeLimitOf (vote : Bool) (c : TicketContribData) : Int :=
  if vote then c.voteFeeLimit else c.revocationFeeLimit

/-- The comparator of the sort: ascending fee limit.
Source: `src/validation.cpp` `CalculateNetRemunerations` (the `std::sort` lambda)
Kind: D -/
def feeLimitLess (contributions : List TicketContribData) (vote : Bool) (a b : Nat) : Bool :=
  decide (feeLimitOf vote (contributions.getD a default) <
    feeLimitOf vote (contributions.getD b default))

/-- `indexes` after `std::iota` and `std::sort`: all but the first are sorted under
`FirstContributor`, all of them otherwise.
Source: `src/validation.cpp` `CalculateNetRemunerations` (the index sort)
Kind: D -/
def sortIndexes (sort : StdSort) (contributions : List TicketContribData) (vote : Bool)
    (feePolicy : FeeDistributionPolicy) : List Nat :=
  let indexes := List.range contributions.length
  let start := if feePolicy = .firstContributor then 1 else 0
  indexes.take start ++ sort (feeLimitLess contributions vote) (indexes.drop start)

/-! ## The loop -/

/-- `CScript dummyScript{GetScriptForDestination(CKeyID())}`: the P2PKH script of the zero key
id, against which remunerations are tested for dust.
Source: `src/validation.cpp` `CalculateNetRemunerations`
Kind: D -/
def dummyScript : CScript := getScriptForDestination (.keyID (List.replicate 20 0))

/-- What the loop of `CalculateNetRemunerations` reads besides its own variables: the arguments,
`::dustRelayFee` and `totalContribution`.
Source: `src/validation.cpp` `CalculateNetRemunerations`
Kind: D -/
structure NetRemunerationEnv where
  contributions : List TicketContribData
  stake : Int
  subsidy : Int
  fee : Int
  feePolicy : FeeDistributionPolicy
  dustRelayFee : CFeeRate
  totalContribution : Int

namespace NetRemunerationEnv

/-- `n`, which is also `indexes.size()`. Kind: D -/
def n (e : NetRemunerationEnv) : Nat := e.contributions.length

/-- `vote = subsidy > 0`. Kind: D -/
def vote (e : NetRemunerationEnv) : Bool := decide (0 < e.subsidy)

/-- `funding = stake + subsidy`. Kind: D -/
def funding (e : NetRemunerationEnv) : Int := e.stake + e.subsidy

/-- `contributions[j]`. Kind: D -/
def contribution (e : NetRemunerationEnv) (j : Nat) : TicketContribData :=
  e.contributions.getD j default

end NetRemunerationEnv

/-- The variables the loop updates: `remunerations`, `paidFee` and `grossRemunerationSum`.
Source: `src/validation.cpp` `CalculateNetRemunerations`
Kind: D -/
structure RemunerationState where
  remunerations : List Int
  paidFee : Int
  grossRemunerationSum : Int
  deriving DecidableEq, Repr

/-- The initial remuneration at position `i` and the new `grossRemunerationSum`: the floor share
before the last position, what is left of the funding at the last.
Source: `src/validation.cpp` `CalculateNetRemunerations` (`// initial remuneration`)
Kind: D -/
def initialRemuneration (e : NetRemunerationEnv) (i : Nat) (contribution : TicketContribData)
    (grossRemunerationSum : Int) : Except Fault (Int × Int) :=
  if i < e.n - 1 then
    calculateGrossRemuneration contribution.contributedAmount e.stake e.subsidy
        e.totalContribution >>= fun g =>
      .ok (g, grossRemunerationSum + g)
  else .ok (e.funding - grossRemunerationSum, grossRemunerationSum)

/-- `MoneyRange(remuneration) && !IsDust(CTxOut(remuneration, dummyScript), ::dustRelayFee)`: the
test every initial remuneration must pass.
Source: `src/validation.cpp` `CalculateNetRemunerations`
Kind: D -/
def remunerationAdmissible (dustRelayFee : CFeeRate) (remuneration : Int) : Bool :=
  moneyRange remuneration && !isDust ⟨remuneration, dummyScript⟩ dustRelayFee

/-- The fee the policy asks of the contributor at position `i`, index `j`: all that is unpaid
from the first contributor, an equal or a proportional part from the others, and the rest from
the last. The proportional part is computed (and may throw) before the last position replaces it.
Source: `src/validation.cpp` `CalculateNetRemunerations` (`contributionFee`)
Kind: D -/
def policyFee (e : NetRemunerationEnv) (i j : Nat) (contribution : TicketContribData)
    (paidFee : Int) : Except Fault Int :=
  match e.feePolicy with
  | .firstContributor => .ok (if j = 0 then e.fee else e.fee - paidFee)
  | .equalFee => .ok (if i = e.n - 1 then e.fee - paidFee else e.fee.tdiv e.n)
  | .proportionalFee =>
    scaledShare contribution.contributedAmount e.fee e.totalContribution >>= fun f =>
      .ok (if i = e.n - 1 then e.fee - paidFee else f)

/-- The fee capped by the contributor's limit; `none` (the function returns `{}`) when the last
contributor's limit does not cover it.
Source: `src/validation.cpp` `CalculateNetRemunerations` (`if (contributionFee > feeLimit)`)
Kind: D -/
def capFee (e : NetRemunerationEnv) (i : Nat) (feeLimit contributionFee : Int) : Option Int :=
  if contributionFee > feeLimit then
    if i = e.n - 1 then none else some feeLimit
  else some contributionFee

/-- The fee lowered to leave the remuneration just above dust; `none` when it must be lowered at
the last contributor.
Source: `src/validation.cpp` `CalculateNetRemunerations` (`dustThreshold`)
Kind: D -/
def dustCapFee (e : NetRemunerationEnv) (i : Nat) (remuneration contributionFee : Int) :
    Option Int :=
  let dustThreshold :=
    getDustThreshold ⟨remuneration - contributionFee, dummyScript⟩ e.dustRelayFee
  if contributionFee > remuneration ∨ remuneration - contributionFee ≤ dustThreshold then
    if i = e.n - 1 then none else some (remuneration - dustThreshold)
  else some contributionFee

/-- The fee branch (`fee > 0`): the remuneration after its fee and the new `paidFee`.
Source: `src/validation.cpp` `CalculateNetRemunerations` (`// fee`)
Kind: D -/
def feeStep (e : NetRemunerationEnv) (i j : Nat) (contribution : TicketContribData)
    (remuneration paidFee : Int) : Except Fault (Option (Int × Int)) :=
  policyFee e i j contribution paidFee >>= fun contributionFee =>
    .ok ((capFee e i (feeLimitOf e.vote contribution) contributionFee).bind fun capped =>
      (dustCapFee e i remuneration capped).map fun f => (remuneration - f, paidFee + f))

/-- One turn of the loop, at position `i` of the sorted indexes and contribution index `j`;
`none` is its `return {}`. The remuneration is written once, after its fee: the source writes it
before and updates it after, and discards the vector on every early return.
Source: `src/validation.cpp` `CalculateNetRemunerations` (the loop body)
Kind: D
Fidelity: exact -/
def remunerationStep (e : NetRemunerationEnv) (i j : Nat) (st : RemunerationState) :
    Except Fault (Option RemunerationState) :=
  let contribution := e.contribution j
  initialRemuneration e i contribution st.grossRemunerationSum >>= fun (remuneration, gsum) =>
    if ¬ remunerationAdmissible e.dustRelayFee remuneration then .ok none
    else if e.fee > 0 then
      feeStep e i j contribution remuneration st.paidFee >>= fun
        | none => .ok none
        | some (net, paidFee) =>
          .ok (some ⟨st.remunerations.set j net, paidFee, gsum⟩)
    else .ok (some ⟨st.remunerations.set j remuneration, st.paidFee, gsum⟩)

/-- The loop over the sorted indexes from position `i`.
Source: `src/validation.cpp` `CalculateNetRemunerations` (`for (unsigned i = 0; ...)`)
Kind: D
Fidelity: exact -/
def remunerationLoop (e : NetRemunerationEnv) :
    Nat → List Nat → RemunerationState → Except Fault (Option RemunerationState)
  | _, [], st => .ok (some st)
  | i, j :: js, st =>
    remunerationStep e i j st >>= fun
      | none => .ok none
      | some st' => remunerationLoop e (i + 1) js st'

/-- `totalContribution`: the sum of the contributed amounts. Kind: D -/
def totalContribution (contributions : List TicketContribData) : Int :=
  (contributions.map TicketContribData.contributedAmount).sum

/-- The body of `CalculateNetRemunerations` after its sort, for the order `indexes` the sort
left: the preconditions, the money range of every contribution, and the loop; `{}` on failure.
Source: `src/validation.cpp` `CalculateNetRemunerations`
Kind: D
Fidelity: exact; `contributions[j]` is read only at the indexes of the sort, all below `n` -/
def netRemunerationsWithOrder (dustRelayFee : CFeeRate) (contributions : List TicketContribData)
    (stake subsidy fee : Int) (feePolicy : FeeDistributionPolicy) (indexes : List Nat) :
    Except Fault (List Int) :=
  -- preconditions
  if contributions.length = 0 ∨ ¬ moneyRange stake ∨ ¬ moneyRange subsidy ∨ ¬ moneyRange fee then
    .ok []
  else if ¬ contributions.all (fun c => moneyRange c.contributedAmount) then .ok []
  else
    let e : NetRemunerationEnv :=
      ⟨contributions, stake, subsidy, fee, feePolicy, dustRelayFee,
        totalContribution contributions⟩
    remunerationLoop e 0 indexes ⟨List.replicate contributions.length 0, 0, 0⟩ >>= fun
      | none => .ok []
      | some st => .ok st.remunerations

/-- `CalculateNetRemunerations(contributions, stake, subsidy, fee, feePolicy)`, with the
standard library's `sort` and the node's `::dustRelayFee`.
Source: `src/validation.cpp` `CalculateNetRemunerations`
Kind: D
Fidelity: exact -/
def calculateNetRemunerations (sort : StdSort) (dustRelayFee : CFeeRate)
    (contributions : List TicketContribData) (stake subsidy fee : Int)
    (feePolicy : FeeDistributionPolicy) : Except Fault (List Int) :=
  netRemunerationsWithOrder dustRelayFee contributions stake subsidy fee feePolicy
    (sortIndexes sort contributions (decide (0 < subsidy)) feePolicy)

end BwsCoin.Stake
