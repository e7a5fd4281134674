import Mathlib
import BwsCoin.Basic
import BwsCoin.Lib.RootedChain

/-!
# The block index chain, as the stake code reads it

The ticket price (`src/pow.cpp`) and the stake version tally (`src/stake/stakeversion.cpp`) walk
a `CBlockIndex` back along `pprev` and jump to an ancestor with `GetAncestor`. Here an entry is a
`RootedChain` of the fields those functions read, rooted at the genesis entry, so `nHeight` is
the number of links back to it.

`GetAncestor` takes an `int`; the callers pass `int64_t` heights, which the conversion takes
modulo `2^32` (`intOf`). On the heights of a chain the conversion is exact (`intOf_of_range`).
An `int` sum that leaves the range of `int` is undefined (`intAdd`).
-/

namespace BwsCoin.Chain

/-- The fields of a `CBlockIndex` that the stake difficulty and the stake version code read.
Source: `src/chain.h` `CBlockIndex`
Kind: D
Fidelity: exact on these fields; `phashBlock` is the hash the entry is stored under -/
structure ChainFields where
  /-- `*phashBlock`, the block's hash. -/
  phashBlock : Uint256
  /-- `nStakeVersion` of the header. -/
  nStakeVersion : UInt32
  /-- `nStakeDifficulty`, the ticket price the block was mined under. -/
  nStakeDifficulty : Int64
  /-- `nTicketPoolSize`, the live tickets after the block. -/
  nTicketPoolSize : UInt32
  /-- `nFreshStake`, the tickets the block bought. -/
  nFreshStake : UInt8
  deriving DecidableEq, Repr

/-- A block index entry with its chain of `pprev` links back to the genesis entry.
Source: `src/chain.h` `CBlockIndex` (`pprev`, `nHeight`)
Kind: D
Fidelity: exact on chains whose every entry but the genesis one has a parent one height below -/
abbrev ChainIndex := RootedChain ChainFields

/-- An `int64_t` converted to `int`: modulo `2^32`, two's complement.
Source: none: the C++ conversion
Kind: D -/
def intOf (x : Int) : Int := (Int32.ofInt x).toInt

/-- A value in the range of `int` is its own `int`.
Source: none: infrastructure (conversion to `int`)
Kind: L -/
theorem intOf_of_range {x : Int} (h₁ : -2 ^ 31 ≤ x) (h₂ : x < 2 ^ 31) : intOf x = x := by
  rw [intOf, Int32.toInt_ofInt]
  exact Int.bmod_eq_of_le (by simp [Int32.size]; omega) (by simp [Int32.size]; omega)

/-- `a + b` of two `int`s: undefined when the sum leaves the range of `int`.
Source: none: the C++ operator
Kind: D -/
def intAdd (a b : Int) : Except Fault Int :=
  if -2 ^ 31 ≤ a + b ∧ a + b < 2 ^ 31 then .ok (a + b)
  else .error (.undefined "signed integer overflow")

/-- A sum in the range of `int` is computed exactly.
Source: none: infrastructure (C++ `+` on `int`)
Kind: L -/
theorem intAdd_of_range {a b : Int} (h₁ : -2 ^ 31 ≤ a + b) (h₂ : a + b < 2 ^ 31) :
    intAdd a b = .ok (a + b) := if_pos ⟨h₁, h₂⟩

/-- A sum above `INT_MAX` is signed overflow.
Source: none: infrastructure (C++ `+` on `int`)
Kind: L -/
theorem intAdd_of_ge {a b : Int} (h : 2 ^ 31 ≤ a + b) :
    intAdd a b = .error (.undefined "signed integer overflow") := if_neg fun hr => by omega

namespace ChainIndex

/-- `nHeight`. Source: `src/chain.h` `CBlockIndex::nHeight`. Kind: D -/
def nHeight (c : ChainIndex) : Int := c.height

/-- `GetAncestor(height)`: null below `0` and above the entry's height, else the entry of the
chain at that height.
Source: `src/chain.cpp` `CBlockIndex::GetAncestor`
Kind: D
Fidelity: exact on the result; the `pskip` shortcut of the source reaches the entry the `pprev`
walk reaches -/
def getAncestor (c : ChainIndex) (height : Int) : Option ChainIndex :=
  if height < 0 then none else c.ancestorAt height.toNat

/-- Source: `src/chain.h` `CBlockIndex::nHeight`. Kind: L -/
@[simp] theorem nHeight_cons (parent : ChainIndex) (a : ChainFields) :
    nHeight (.cons parent a) = parent.nHeight + 1 := by
  simp [nHeight]

/-- Source: `src/chain.h` `CBlockIndex::nHeight`. Kind: L -/
theorem nHeight_nonneg (c : ChainIndex) : 0 ≤ c.nHeight := by
  simp [nHeight]

/-- Every height from `0` to the entry's own is the height of one of its ancestors.
Source: `src/chain.cpp` `CBlockIndex::GetAncestor`
Kind: L -/
theorem getAncestor_of_le {c : ChainIndex} {height : Int} (h₀ : 0 ≤ height)
    (hle : height ≤ c.nHeight) :
    ∃ b, c.getAncestor height = some b ∧ b ∈ c.ancestors ∧ b.nHeight = height := by
  have hle' : height.toNat ≤ c.height := by simp only [nHeight] at hle; omega
  refine ⟨c.walkBack (c.height - height.toNat), ?_, RootedChain.walkBack_mem_ancestors _ _, ?_⟩
  · simp [getAncestor, RootedChain.ancestorAt, not_lt.mpr h₀, hle']
  · simp only [nHeight, RootedChain.height_walkBack]
    omega

end ChainIndex

end BwsCoin.Chain
