import Mathlib
import BwsCoin.Chain.Skip

/-!
# The active chain

`CChain` (`src/chain.h`, `src/chain.cpp`) keeps a chain of the block index as the vector `vChain`
of its entries by height, so that `operator[]` and `Contains` are one array access. `SetTip`
moves the chain to a new tip: it resizes the vector to the tip's height and writes the tip's
ancestors down from the top until it meets an entry already in place. `FindFork` and
`IsForkAtMost` lower an entry to the chain's height with `GetAncestor` and walk down its `pprev`
links to the chain; `GetLocator` lists block hashes back from an entry, one by one and then in
doubling steps, through `operator[]` while the entry is on the chain and `GetAncestor` off it.
`LastCommonAncestor` lowers the higher of two entries to the other's height and walks both down
until they meet.

`GetLocator`'s loop runs while its entry is not null; the model bounds it by the entry's height
plus one turns, and `nStep *= 2` is undefined past `INT_MAX` (`intMul`).

A vector slot holds a pointer that may be null, `Option (RootedChain α)`; pointer equality is the
equality of entries. `GetAncestor` is the skip walk `getAncestorSkip` with the index's `pskip`
pointers.
-/

namespace BwsCoin.Chain

/-- `CChain`: the entries of a chain, by height.
Source: `src/chain.h` `CChain` (`vChain`)
Kind: D -/
structure CChain (α : Type) where
  vChain : List (Option (RootedChain α))

/-- `std::vector::resize(n)`: cut to `n` slots, or filled up to `n` with null pointers.
Source: none: infrastructure (`std::vector<T*>::resize`)
Kind: D -/
def vectorResize {β : Type} (v : List (Option β)) (n : Nat) : List (Option β) :=
  v.take n ++ List.replicate (n - v.length) none

/-- `a * b` of two `int`s: undefined when the product is out of range.
Source: none: infrastructure (C++ signed multiplication)
Kind: D -/
def intMul (a b : Int) : Except Fault Int :=
  if -2 ^ 31 ≤ a * b ∧ a * b < 2 ^ 31 then .ok (a * b) else .error (.undefined "signed integer overflow")

namespace CChain

variable {α : Type} [DecidableEq α]

/-- `Genesis()`: the slot at height `0`, null for an empty chain.
Source: `src/chain.h` `CChain::Genesis`
Kind: D -/
def genesis (c : CChain α) : Option (RootedChain α) :=
  if c.vChain.length > 0 then c.vChain.getD 0 none else none

/-- `Tip()`: the last slot, null for an empty chain.
Source: `src/chain.h` `CChain::Tip`
Kind: D -/
def tip (c : CChain α) : Option (RootedChain α) :=
  if c.vChain.length > 0 then c.vChain.getD (c.vChain.length - 1) none else none

/-- `operator[](nHeight)`: the slot at `nHeight`, null out of `0 .. size - 1`.
Source: `src/chain.h` `CChain::operator[]`
Kind: D -/
def get (c : CChain α) (nHeight : Int) : Option (RootedChain α) :=
  if nHeight < 0 ∨ nHeight ≥ c.vChain.length then none else c.vChain.getD nHeight.toNat none

/-- `Height()`: `vChain.size() - 1`, `-1` for an empty chain.
Source: `src/chain.h` `CChain::Height`
Kind: D -/
def height (c : CChain α) : Int := c.vChain.length - 1

/-- `Contains(pindex)`: `(*this)[pindex->nHeight] == pindex`.
Source: `src/chain.h` `CChain::Contains`
Kind: D -/
def contains (c : CChain α) (pindex : RootedChain α) : Bool :=
  decide (c.get pindex.height = some pindex)

/-- `Next(pindex)`: the slot above `pindex` when the chain contains it.
Source: `src/chain.h` `CChain::Next`
Kind: D -/
def next (c : CChain α) (pindex : RootedChain α) : Option (RootedChain α) :=
  if c.contains pindex then c.get (pindex.height + 1) else none

/-- The loop of `SetTip`: while the slot at `pindex`'s height is not `pindex`, write it there and
go to `pindex->pprev`, until the genesis entry has been written.
Source: `src/chain.cpp` `CChain::SetTip` (the `while` loop)
Kind: D -/
def setTipLoop (v : List (Option (RootedChain α))) (pindex : RootedChain α) :
    List (Option (RootedChain α)) :=
  if v.getD pindex.height none = some pindex then v
  else
    let v := v.set pindex.height (some pindex)
    match pindex with
    | .root _ => v
    | .cons pprev _ => setTipLoop v pprev

/-- `SetTip(pindex)`: an empty chain for a null tip; otherwise the vector resized to the tip's
height and rewritten down to where it already agrees with the tip.
Source: `src/chain.cpp` `CChain::SetTip`
Kind: D -/
def setTip (c : CChain α) : Option (RootedChain α) → CChain α
  | none => ⟨[]⟩
  | some pindex => ⟨setTipLoop (vectorResize c.vChain (pindex.height + 1)) pindex⟩

/-- The loop of `FindFork`: `while (pindex && !Contains(pindex)) pindex = pindex->pprev`.
Source: `src/chain.cpp` `CChain::FindFork` (the `while` loop)
Kind: D -/
def findForkLoop (c : CChain α) (pindex : RootedChain α) : Option (RootedChain α) :=
  if c.contains pindex then some pindex
  else
    match pindex with
    | .root _ => none
    | .cons pprev _ => c.findForkLoop pprev

/-- `if (pindex->nHeight > Height()) pindex = pindex->GetAncestor(Height())`, shared by
`FindFork` and `IsForkAtMost`.
Source: `src/chain.cpp` `CChain::FindFork`, `CChain::IsForkAtMost`
Kind: D -/
def lowerToHeight (c : CChain α) (pskip : SkipPointers α) (pindex : RootedChain α) :
    Except Fault (Option (RootedChain α)) :=
  if (pindex.height : Int) > c.height then getAncestorSkip pskip pindex c.height
  else .ok (some pindex)

/-- `FindFork(pindex)`: the highest entry of the chain among `pindex`'s ancestors, null when
`pindex` is.
Source: `src/chain.cpp` `CChain::FindFork`
Kind: D -/
def findFork (c : CChain α) (pskip : SkipPointers α) :
    Option (RootedChain α) → Except Fault (Option (RootedChain α))
  | none => .ok none
  | some pindex => (c.lowerToHeight pskip pindex).map fun p => p.bind c.findForkLoop

/-- The loop of `IsForkAtMost`: true at an entry the chain contains, false once `maxDepth` steps
are spent or the genesis entry is passed.
Source: `src/chain.cpp` `CChain::IsForkAtMost` (the `while` loop)
Kind: D -/
def isForkAtMostLoop (c : CChain α) (pindex : RootedChain α) (maxDepth : Int) : Bool :=
  if c.contains pindex then true
  else if maxDepth ≤ 0 then false
  else
    match pindex with
    | .root _ => false
    | .cons pprev _ => c.isForkAtMostLoop pprev (maxDepth - 1)

/-- `IsForkAtMost(pindex, maxDepth)`: whether `pindex`, lowered to the chain's height, is at most
`maxDepth` blocks above an entry of the chain; false for a null `pindex`.
Source: `src/chain.cpp` `CChain::IsForkAtMost`
Kind: D -/
def isForkAtMost (c : CChain α) (pskip : SkipPointers α) :
    Option (RootedChain α) → Int → Except Fault Bool
  | none, _ => .ok false
  | some pindex, maxDepth =>
    (c.lowerToHeight pskip pindex).map fun p =>
      match p with
      | some p => c.isForkAtMostLoop p maxDepth
      | none => false

/-- The loop of `GetLocator` at `pindex`, with `nStep` and the hashes `vHave` so far: push the
entry's hash, stop at the genesis entry, else step back `nStep` heights (to `0` at least) through
`operator[]` while the entry is on the chain and through `GetAncestor` off it, and double `nStep`
once more than ten hashes are in. A null entry ends the loop; the model stops after `fuel` turns.
Source: `src/chain.cpp` `CChain::GetLocator` (the `while (pindex)` loop)
Kind: D -/
def getLocatorLoop {β : Type} (c : CChain α) (pskip : SkipPointers α)
    (getBlockHash : RootedChain α → β) :
    Nat → RootedChain α → Int → List β → Except Fault (List β)
  | 0, _, _, _ => .error .diverge
  | fuel + 1, pindex, nStep, vHave =>
    let vHave := vHave ++ [getBlockHash pindex]
    if pindex.height = 0 then .ok vHave
    else
      let nHeight := max ((pindex.height : Int) - nStep) 0
      (if c.contains pindex then .ok (c.get nHeight) else getAncestorSkip pskip pindex nHeight)
        >>= fun next =>
      (if vHave.length > 10 then intMul nStep 2 else .ok nStep) >>= fun nStep =>
      match next with
      | some pindex => c.getLocatorLoop pskip getBlockHash fuel pindex nStep vHave
      | none => .ok vHave

/-- `GetLocator(pindex)`: the hashes back from `pindex`, the tip when `pindex` is null, as the
`vHave` of a `CBlockLocator`.
Source: `src/chain.cpp` `CChain::GetLocator`
Kind: D -/
def getLocator {β : Type} (c : CChain α) (pskip : SkipPointers α)
    (getBlockHash : RootedChain α → β) (pindex : Option (RootedChain α)) : Except Fault (List β) :=
  match (if pindex.isNone then c.tip else pindex) with
  | some pindex => c.getLocatorLoop pskip getBlockHash (pindex.height + 1) pindex 1 []
  | none => .ok []

end CChain

variable {α : Type} [DecidableEq α]

/-- The loop of `LastCommonAncestor`: `while (pa != pb && pa && pb)` step both to `pprev`.
Source: `src/chain.cpp` `LastCommonAncestor` (the `while` loop)
Kind: D -/
def lastCommonLoop (pa pb : RootedChain α) : Option (RootedChain α) × Option (RootedChain α) :=
  if pa = pb then (some pa, some pb)
  else
    match pa, pb with
    | .cons pa' _, .cons pb' _ => lastCommonLoop pa' pb'
    | pa, pb => (pa.parent?, pb.parent?)

/-- `LastCommonAncestor(pa, pb)`: the higher entry lowered to the other's height by
`GetAncestor`, then both walked down until they meet; `assert(pa == pb)` at the end.
Source: `src/chain.cpp` `LastCommonAncestor`
Kind: D -/
def lastCommonAncestor (pskip : SkipPointers α) (pa pb : RootedChain α) :
    Except Fault (Option (RootedChain α)) :=
  let lowered : Except Fault (Option (RootedChain α) × Option (RootedChain α)) :=
    if pa.height > pb.height then (getAncestorSkip pskip pa pb.height).map fun a => (a, some pb)
    else if pb.height > pa.height then
      (getAncestorSkip pskip pb pa.height).map fun b => (some pa, b)
    else .ok (some pa, some pb)
  lowered >>= fun p =>
    let r := match p.1, p.2 with
      | some a, some b => lastCommonLoop a b
      | a, b => (a, b)
    if r.1 = r.2 then .ok r.1 else .error (.abort "pa == pb")

end BwsCoin.Chain
