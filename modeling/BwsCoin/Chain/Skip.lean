import Mathlib
import BwsCoin.Chain.StakeChain

/-!
# The skip pointers of the block index

Each `CBlockIndex` (`src/chain.cpp`) keeps, besides `pprev`, a pointer `pskip` back to an
ancestor at `GetSkipHeight(nHeight)`, set by `BuildSkip` when the entry is added to the index.
`GetAncestor(height)` walks back from the entry, along `pskip` where that does not overshoot and
`pprev->pskip` is not the better jump, and along `pprev` otherwise. The `pprev` walk alone is
`ChainIndex.getAncestor`, which the stake code's model reads.

The pointers are a map `pskip` from entries to entries, null where `BuildSkip` has not run. The
walk reads nothing of an entry but its links and its height, so the model is over entries of any
data; `getAncestorSkip_after_buildSkips` takes the entries of the stake code.

* `getSkipHeight_lt` — a skip goes strictly back, so the walk ends.
* `getAncestorSkip_eq` — with every `pskip` null or at the ancestor at `GetSkipHeight`, the walk
  returns the ancestor the `pprev` walk returns, and never reaches its `assert`.
* **`getAncestorSkip_after_buildSkips`** — from no pointers, every sequence of `BuildSkip` calls
  returns and leaves `GetAncestor` equal to the `pprev` walk for every entry and height, with a
  pointer strictly back on every entry built above the genesis one (the `assert` of
  `CheckBlockIndex`).
-/

namespace BwsCoin.Chain

/-- `InvertLowestOne(n)`: `n & (n - 1)`, the lowest set bit of `n` cleared.
Source: `src/chain.cpp` `InvertLowestOne`
Kind: D
Fidelity: exact on the non-negative heights it is applied to -/
def invertLowestOne (n : Nat) : Nat := n &&& (n - 1)

/-- `GetSkipHeight(height)`: `0` below `2`; otherwise, for an odd height, one above the height
with the two lowest set bits of `height - 1` cleared, and for an even one the height with its
lowest set bit cleared.
Source: `src/chain.cpp` `GetSkipHeight`
Kind: D
Fidelity: exact on non-negative heights -/
def getSkipHeight (height : Nat) : Nat :=
  if height < 2 then 0
  else if height &&& 1 ≠ 0 then invertLowestOne (invertLowestOne (height - 1)) + 1
  else invertLowestOne height

/-- The `pskip` pointers of the block index: the ancestor each entry points at, none for a null
pointer.
Source: `src/chain.h` `CBlockIndex::pskip`
Kind: D -/
abbrev SkipPointers (α : Type) := RootedChain α → Option (RootedChain α)

variable {α : Type}

/-- The condition of `GetAncestor` for following `pskip` from `heightWalk` towards `height`: the
skip lands on `height`, or above it and `pprev->pskip` is not a better jump than `pskip->pprev`.
Source: `src/chain.cpp` `CBlockIndex::GetAncestor` (the condition after `pindexWalk->pskip != nullptr`)
Kind: D -/
def followSkip (height heightWalk : Nat) : Bool :=
  let heightSkip := getSkipHeight heightWalk
  let heightSkipPrev := getSkipHeight (heightWalk - 1)
  heightSkip == height ||
    (decide (heightSkip > height) &&
      !(decide (heightSkipPrev + 2 < heightSkip) && decide (heightSkipPrev ≥ height)))

/-- `assert(pindexWalk->pprev); pindexWalk = pindexWalk->pprev; heightWalk--;`
Source: `src/chain.cpp` `CBlockIndex::GetAncestor` (the `else` branch)
Kind: D -/
def stepPrev (pindexWalk : RootedChain α) (heightWalk : Nat) :
    Except Fault (RootedChain α × Nat) :=
  match pindexWalk.parent? with
  | some pprev => .ok (pprev, heightWalk - 1)
  | none => .error (.abort "pindexWalk->pprev")

/-- One step of the walk of `GetAncestor`: along `pskip` when it is set and `followSkip` holds,
along `pprev` otherwise.
Source: `src/chain.cpp` `CBlockIndex::GetAncestor` (the body of the `while`)
Kind: D -/
def walkStep (pskip : SkipPointers α) (height : Nat) (pindexWalk : RootedChain α)
    (heightWalk : Nat) : Except Fault (RootedChain α × Nat) :=
  match pskip pindexWalk with
  | some skip =>
    if followSkip height heightWalk then .ok (skip, getSkipHeight heightWalk)
    else stepPrev pindexWalk heightWalk
  | none => stepPrev pindexWalk heightWalk

/-- `while (heightWalk > height)`, for at most `fuel` turns.
Source: `src/chain.cpp` `CBlockIndex::GetAncestor` (the `while` loop)
Kind: D -/
def getAncestorWalk (pskip : SkipPointers α) (height : Nat) :
    Nat → RootedChain α → Nat → Except Fault (RootedChain α)
  | 0, pindexWalk, heightWalk =>
    if heightWalk > height then .error .diverge else .ok pindexWalk
  | fuel + 1, pindexWalk, heightWalk =>
    if heightWalk > height then
      walkStep pskip height pindexWalk heightWalk >>= fun next =>
        getAncestorWalk pskip height fuel next.1 next.2
    else .ok pindexWalk

/-- `CBlockIndex::GetAncestor(height)` with the pointers `pskip`: null out of `0 .. nHeight`, else
the walk from the entry at its own height. Each turn lowers `heightWalk`, so `nHeight` turns
suffice (`getSkipHeight_lt`).
Source: `src/chain.cpp` `CBlockIndex::GetAncestor`
Kind: D -/
def getAncestorSkip (pskip : SkipPointers α) (c : RootedChain α) (height : Int) :
    Except Fault (Option (RootedChain α)) :=
  if height > (c.height : Int) ∨ height < 0 then .ok none
  else (getAncestorWalk pskip height.toNat c.height c c.height).map some

/-- `CBlockIndex::BuildSkip()`: `pskip = pprev->GetAncestor(GetSkipHeight(nHeight))` for an entry
with a parent.
Source: `src/chain.cpp` `CBlockIndex::BuildSkip`
Kind: D -/
def buildSkip [DecidableEq α] (pskip : SkipPointers α) (c : RootedChain α) : Except Fault (SkipPointers α) :=
  match c.parent? with
  | some pprev =>
    getAncestorSkip pskip pprev (getSkipHeight c.height : Int) >>= fun skip =>
      .ok (Function.update pskip c skip)
  | none => .ok pskip

/-! ## Skips go back -/

/-- Clearing the lowest set bit never raises the number.
Source: `src/chain.cpp` `InvertLowestOne`
Kind: L -/
theorem invertLowestOne_le (n : Nat) : invertLowestOne n ≤ n := Nat.and_le_left

/-- Clearing the lowest set bit of a positive number lowers it.
Source: `src/chain.cpp` `InvertLowestOne`
Kind: L -/
theorem invertLowestOne_lt {n : Nat} (h : 0 < n) : invertLowestOne n < n :=
  lt_of_le_of_lt Nat.and_le_right (Nat.sub_lt h one_pos)

/-- A skip from a positive height goes strictly back.
Source: `src/chain.cpp` `GetSkipHeight`
Kind: L -/
theorem getSkipHeight_lt {height : Nat} (h : 0 < height) : getSkipHeight height < height := by
  unfold getSkipHeight
  split_ifs with h2 hodd
  · exact h
  · -- odd: two bits of the even `height - 1` cleared, then one up
    have hodd' : height % 2 = 1 := by
      rw [← Nat.and_one_is_mod]
      have : height &&& 1 ≤ 1 := Nat.and_le_right
      omega
    have h₁ := invertLowestOne_lt (n := height - 1) (by omega)
    have h₂ := invertLowestOne_le (invertLowestOne (height - 1))
    omega
  · exact invertLowestOne_lt h

/-- `followSkip` never goes below the height sought.
Source: `src/chain.cpp` `CBlockIndex::GetAncestor`
Kind: L -/
theorem le_getSkipHeight_of_followSkip {height heightWalk : Nat}
    (h : followSkip height heightWalk = true) : height ≤ getSkipHeight heightWalk := by
  simp only [followSkip, Bool.or_eq_true, beq_iff_eq, Bool.and_eq_true, decide_eq_true_eq] at h
  omega

/-! ## The walk -/

/-- `pskip` of the entry is null or at its ancestor at `GetSkipHeight(nHeight)`, as `BuildSkip`
sets it.
Source: none: the invariant of `BuildSkip`
Kind: D -/
def SkipValid (pskip : SkipPointers α) (b : RootedChain α) : Prop :=
  pskip b = none ∨ pskip b = b.ancestorAt (getSkipHeight b.height)

/-- Under valid pointers a step goes to an ancestor, no lower than the height sought, at the
height the walk counts.
Source: `src/chain.cpp` `CBlockIndex::GetAncestor`
Kind: L -/
theorem walkStep_spec {pskip : SkipPointers α} {height : Nat} {b : RootedChain α}
    (hv : SkipValid pskip b) (hlt : height < b.height) :
    ∃ b', walkStep pskip height b b.height = .ok (b', b'.height) ∧ b' ∈ b.ancestors ∧
      height ≤ b'.height ∧ b'.height < b.height := by
  -- the `pprev` step: the entry is above the genesis one, so it has a parent
  have hprev : ∃ b', stepPrev b b.height = .ok (b', b'.height) ∧ b' ∈ b.ancestors ∧
      height ≤ b'.height ∧ b'.height < b.height := by
    cases b with
    | root a => simp [RootedChain.height] at hlt
    | cons parent a =>
      refine ⟨parent, by simp [stepPrev], by simp [RootedChain.self_mem_ancestors], ?_, ?_⟩ <;>
        simp only [RootedChain.height_cons] at hlt ⊢ <;> omega
  unfold walkStep
  rcases hs : pskip b with _ | skip
  · exact hprev
  · dsimp only
    by_cases hf : followSkip height b.height = true
    · -- the skip lands on the ancestor at the skip height
      rw [if_pos hf]
      have hskip : b.ancestorAt (getSkipHeight b.height) = some skip := by
        rcases hv with hv | hv <;> rw [hv] at hs
        · cases hs
        · exact hs
      obtain ⟨hmem, hheight⟩ := RootedChain.ancestorAt_eq_some hskip
      refine ⟨skip, by rw [hheight], hmem, ?_, ?_⟩
      · rw [hheight]
        exact le_getSkipHeight_of_followSkip hf
      · rw [hheight]
        exact getSkipHeight_lt (by omega)
    · rw [if_neg hf]
      exact hprev

/-- **The walk of `GetAncestor` under valid pointers** reaches the ancestor at the height sought.
Source: `src/chain.cpp` `CBlockIndex::GetAncestor`
Kind: L -/
theorem getAncestorWalk_eq {pskip : SkipPointers α} {height : Nat} :
    ∀ (fuel : Nat) (b r : RootedChain α), (∀ a ∈ b.ancestors, SkipValid pskip a) →
      b.ancestorAt height = some r → b.height - height ≤ fuel →
      getAncestorWalk pskip height fuel b b.height = .ok r := by
  intro fuel
  induction fuel with
  | zero =>
    intro b r _ hr hfuel
    obtain ⟨hmem, hheight⟩ := RootedChain.ancestorAt_eq_some hr
    have hle := RootedChain.height_le_of_mem_ancestors hmem
    have heq : r = b := RootedChain.eq_of_mem_ancestors_of_height_eq hmem (by omega)
    simp only [getAncestorWalk, heq]
    rw [if_neg (by omega)]
  | succ fuel ih =>
    intro b r hv hr hfuel
    obtain ⟨hmem, hheight⟩ := RootedChain.ancestorAt_eq_some hr
    have hle := RootedChain.height_le_of_mem_ancestors hmem
    rw [getAncestorWalk]
    by_cases hgt : b.height > height
    · -- one step back along the chain, to an ancestor no lower than the height sought
      rw [if_pos hgt]
      obtain ⟨b', hstep, hmem', hge', hlt'⟩ := walkStep_spec (hv b (RootedChain.self_mem_ancestors b)) hgt
      rw [hstep, except_ok_bind]
      exact ih b' r (fun a ha => hv a (RootedChain.mem_ancestors_trans ha hmem'))
        (by rw [RootedChain.ancestorAt_of_mem_ancestors hmem' hge', hr]) (by omega)
    · rw [if_neg hgt]
      rw [RootedChain.eq_of_mem_ancestors_of_height_eq hmem (by omega)]

/-- What `GetAncestor(height)` is for: null below `0`, else the ancestor at `height` (null above the
entry's own height), as the `pprev` walk alone finds it.
Source: `src/chain.cpp` `CBlockIndex::GetAncestor` (its result)
Kind: D -/
def ancestorOrNull (c : RootedChain α) (height : Int) : Option (RootedChain α) :=
  if height < 0 then none else c.ancestorAt height.toNat

/-- Source: `src/chain.cpp` `CBlockIndex::GetAncestor` (its result). Kind: L -/
@[simp] theorem ancestorOrNull_natCast (c : RootedChain α) (h : Nat) :
    ancestorOrNull c (h : Int) = c.ancestorAt h := by
  simp [ancestorOrNull]

/-- **`GetAncestor` under valid pointers** returns the ancestor of the `pprev` walk, at every
height, and never reaches its `assert`.
Source: `src/chain.cpp` `CBlockIndex::GetAncestor`
Kind: L -/
theorem getAncestorSkip_eq {pskip : SkipPointers α} {c : RootedChain α}
    (hv : ∀ b ∈ c.ancestors, SkipValid pskip b) (height : Int) :
    getAncestorSkip pskip c height = .ok (ancestorOrNull c height) := by
  unfold getAncestorSkip
  by_cases hout : height > (c.height : Int) ∨ height < 0
  · rw [if_pos hout]
    rcases hout with hgt | hneg
    · -- above the entry, the ancestor is null too
      have hnn : ¬ height < 0 := by omega
      simp only [ancestorOrNull, hnn, if_false, RootedChain.ancestorAt]
      rw [if_neg (by omega)]
    · simp [ancestorOrNull, hneg]
  · rw [if_neg hout]
    have hle' : height.toNat ≤ c.height := by omega
    obtain ⟨r, hr⟩ := RootedChain.exists_ancestorAt hle'
    rw [getAncestorWalk_eq c.height c r hv hr (by omega), except_map_ok, ancestorOrNull,
      if_neg (by omega), hr]

/-- Under valid pointers `GetAncestor` at a height up to the entry's own returns its ancestor
there.
Source: `src/chain.cpp` `CBlockIndex::GetAncestor`
Kind: L -/
theorem getAncestorSkip_of_le {pskip : SkipPointers α} (hv : ∀ b, SkipValid pskip b)
    {c : RootedChain α} {h : Nat} (hh : h ≤ c.height) :
    ∃ r, getAncestorSkip pskip c h = .ok (some r) ∧ c.ancestorAt h = some r ∧
      r ∈ c.ancestors ∧ r.height = h := by
  obtain ⟨r, hr⟩ := RootedChain.exists_ancestorAt hh
  obtain ⟨hmem, hheight⟩ := RootedChain.ancestorAt_eq_some hr
  refine ⟨r, ?_, hr, hmem, hheight⟩
  rw [getAncestorSkip_eq (fun b _ => hv b), ancestorOrNull_natCast, hr]

/-! ## Building the pointers -/

section build

variable [DecidableEq α]

/-- **`BuildSkip` keeps every pointer valid**, and sets the entry's own, below it, when the entry
has a parent.
Source: `src/chain.cpp` `CBlockIndex::BuildSkip`
Kind: L -/
theorem buildSkip_spec {pskip : SkipPointers α} (hv : ∀ b, SkipValid pskip b) (c : RootedChain α) :
    ∃ pskip', buildSkip pskip c = .ok pskip' ∧ (∀ b, SkipValid pskip' b) ∧
      (∀ b, b ≠ c → pskip' b = pskip b) ∧
      (1 ≤ c.height → pskip' c = c.ancestorAt (getSkipHeight c.height)) := by
  cases c with
  | root a =>
    exact ⟨pskip, rfl, hv, fun _ _ => rfl, by simp [RootedChain.height]⟩
  | cons parent a =>
    have hlt : getSkipHeight (parent.height + 1) ≤ parent.height :=
      Nat.lt_succ_iff.mp (getSkipHeight_lt (Nat.succ_pos _))
    -- the parent's `GetAncestor` is the `pprev` walk, which agrees with the entry's below it
    have hanc : ancestorOrNull parent (getSkipHeight (parent.height + 1) : Int) =
        (RootedChain.cons parent a).ancestorAt (getSkipHeight (parent.height + 1)) := by
      have hmem : parent ∈ (RootedChain.cons parent a).ancestors := by
        simp [RootedChain.self_mem_ancestors]
      rw [ancestorOrNull_natCast, RootedChain.ancestorAt_of_mem_ancestors hmem hlt]
    refine ⟨Function.update pskip (.cons parent a)
      ((RootedChain.cons parent a).ancestorAt (getSkipHeight (parent.height + 1))), ?_, ?_,
      fun b hb => Function.update_of_ne hb _ _, fun _ => Function.update_self _ _ _⟩
    · simp only [buildSkip, RootedChain.parent?_cons, RootedChain.height_cons]
      rw [getAncestorSkip_eq (fun b _ => hv b), hanc, except_ok_bind]
    · intro b
      by_cases hb : b = .cons parent a
      · subst hb
        exact .inr (Function.update_self _ _ _)
      · unfold SkipValid
        rw [Function.update_of_ne hb]
        exact hv b

/-- What a sequence of `BuildSkip` calls keeps: every pointer valid, and each entry built above
the genesis one pointing at its ancestor at its skip height.
Source: `src/chain.cpp` `CBlockIndex::BuildSkip`
Kind: D -/
def BuiltSkips (built : List (RootedChain α)) (pskip : SkipPointers α) : Prop :=
  (∀ b, SkipValid pskip b) ∧
    ∀ c ∈ built, 1 ≤ c.height → pskip c = c.ancestorAt (getSkipHeight c.height)

/-- **A run of `BuildSkip` calls** returns, and keeps what the calls before it built.
Source: `src/chain.cpp` `CBlockIndex::BuildSkip`
Kind: L -/
theorem buildSkips_spec {done : List (RootedChain α)} {pskip : SkipPointers α}
    (h : BuiltSkips done pskip) (todo : List (RootedChain α)) :
    ∃ pskip', todo.foldlM buildSkip pskip = .ok pskip' ∧ BuiltSkips (done ++ todo) pskip' := by
  -- the invariant over the prefix built so far
  induction todo generalizing done pskip with
  | nil => exact ⟨pskip, rfl, by simpa using h⟩
  | cons c todo ih =>
    obtain ⟨hv, hbuilt⟩ := h
    obtain ⟨pskip₁, h₁, hv₁, hsame, hself⟩ := buildSkip_spec hv c
    have hbuilt₁ : BuiltSkips (done ++ [c]) pskip₁ := by
      refine ⟨hv₁, fun b hb hb1 => ?_⟩
      by_cases hbc : b = c
      · subst hbc
        exact hself hb1
      · rw [hsame b hbc]
        exact hbuilt b (by simpa [hbc] using hb) hb1
    obtain ⟨pskip', h', hinv'⟩ := ih hbuilt₁
    refine ⟨pskip', by rw [List.foldlM_cons, h₁, except_ok_bind]; exact h', ?_⟩
    simpa using hinv'

end build

/-- **`BuildSkip` keeps `GetAncestor` exact.** From no pointers, every sequence of `BuildSkip`
calls returns; afterwards `GetAncestor` of every entry at every height is the ancestor the `pprev`
walk gives, and every entry built above the genesis one has a pointer strictly back.
Source: `src/chain.cpp` `CBlockIndex::BuildSkip`, `CBlockIndex::GetAncestor`; `src/validation.cpp` `CheckBlockIndex`
Kind: P -/
theorem getAncestorSkip_after_buildSkips (cs : List ChainIndex) :
    ∃ pskip, cs.foldlM buildSkip (fun _ => none) = .ok pskip ∧
      (∀ (c : ChainIndex) height, getAncestorSkip pskip c height = .ok (c.getAncestor height)) ∧
      ∀ c ∈ cs, 1 ≤ c.height → ∃ s, pskip c = some s ∧ s.height < c.height := by
  obtain ⟨pskip, hfold, hv, hbuilt⟩ := @buildSkips_spec ChainFields _ [] (fun _ => none)
    ⟨fun _ => .inl rfl, fun _ h => by simp at h⟩ cs
  refine ⟨pskip, hfold, fun c height => getAncestorSkip_eq (fun b _ => hv b) height,
    fun c hc hc1 => ?_⟩
  -- the skip height is below the entry's own, so the pointer is set and goes back
  have hlt := getSkipHeight_lt (Nat.lt_of_lt_of_le one_pos hc1)
  obtain ⟨s, hs⟩ := RootedChain.exists_ancestorAt hlt.le
  obtain ⟨-, hsh⟩ := RootedChain.ancestorAt_eq_some hs
  exact ⟨s, by rw [hbuilt c (by simpa using hc) hc1, hs], by omega⟩

end BwsCoin.Chain
