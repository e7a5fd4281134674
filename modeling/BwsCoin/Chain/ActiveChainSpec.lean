import Mathlib
import BwsCoin.Chain.ActiveChain

/-!
# What the active chain computes

The vector of a chain with tip `t` is `tipSlots (some t)`: slot `h` holds `t`'s ancestor at `h`.
`SetTip` keeps the vector in that form (`setTip_tipSlots`): after the resize, the slots below
the new tip's height still hold the old tip's ancestors, and the loop rewrites them from the top
down to the first slot that already holds the new tip's ancestor, below which the two tips share
their ancestors. With the vector in that form the queries of `CChain` read the tip's ancestry,
and with valid `pskip` pointers the walks of `FindFork`, `IsForkAtMost` and `LastCommonAncestor`
find the last common ancestor `RootedChain.LastCommon`.

* **`setTip_run`** — every sequence of `SetTip` calls from the empty chain leaves the vector of
  the last tip set: `operator[]`, `Contains`, `Tip`, `Genesis` and `Height` read its ancestry.
* **`findFork_lastCommon`** — `FindFork(pindex)` is the last common ancestor of `pindex` and the
  tip, null when they have none.
* **`isForkAtMost_iff`** — `IsForkAtMost(pindex, maxDepth)` holds exactly when `pindex`, lowered
  to the chain's height, is at most `max maxDepth 0` blocks above that ancestor.
* **`lastCommonAncestor_lastCommon`** — `LastCommonAncestor(pa, pb)` returns the last common
  ancestor, null for entries of different genesis blocks, and its `assert` never fails.
* **`getLocator_spec`** — `GetLocator(pindex)`, for an entry no higher than `2 ^ 30`, returns the
  hashes of entries of its ancestry at strictly decreasing heights, from its own down to the
  genesis entry, at most `log₂ nHeight + 12` of them, and `nStep` never overflows. On and off
  the chain, `operator[]` and `GetAncestor` give the same ancestor.
-/

namespace BwsCoin.Chain

open RootedChain

variable {α : Type} [DecidableEq α]

/-- The vector of the chain with tip `t`: slot `h` holds `t`'s ancestor at height `h`; no slots
without a tip.
Source: none: the invariant of `CChain::SetTip`
Kind: D -/
def tipSlots : Option (RootedChain α) → List (Option (RootedChain α))
  | none => []
  | some t => (List.range (t.height + 1)).map t.ancestorAt

omit [DecidableEq α] in
/-- Source: none: the invariant of `CChain::SetTip`. Kind: L -/
@[simp] theorem length_tipSlots_some (t : RootedChain α) :
    (tipSlots (some t)).length = t.height + 1 := by
  simp [tipSlots]

omit [DecidableEq α] in
/-- Slot `h` of a tip's vector is its ancestor at `h`, up to the tip's height.
Source: none: the invariant of `CChain::SetTip`
Kind: L -/
theorem getElem?_tipSlots_some (t : RootedChain α) (h : Nat) :
    (tipSlots (some t))[h]? = if h ≤ t.height then some (t.ancestorAt h) else none := by
  by_cases hh : h ≤ t.height
  · rw [if_pos hh, tipSlots, List.getElem?_map, List.getElem?_range (by omega), Option.map_some]
  · rw [if_neg hh, List.getElem?_eq_none (by simp; omega)]

omit [DecidableEq α] in
/-- No ancestor stands above the entry's own height.
Source: `src/chain.cpp` `CBlockIndex::GetAncestor` (its result)
Kind: L -/
theorem ancestorAt_eq_none {t : RootedChain α} {h : Nat} (hh : t.height < h) :
    t.ancestorAt h = none := by
  simp only [RootedChain.ancestorAt]
  rw [if_neg (by omega)]

omit [DecidableEq α] in
/-- Read with a null default, slot `h` is the tip's ancestor at `h`.
Source: none: the invariant of `CChain::SetTip`
Kind: L -/
theorem getD_tipSlots (o : Option (RootedChain α)) (h : Nat) :
    (tipSlots o).getD h none = o.bind (·.ancestorAt h) := by
  cases o with
  | none => simp [tipSlots]
  | some t =>
    rw [List.getD_eq_getElem?_getD, getElem?_tipSlots_some]
    by_cases hh : h ≤ t.height
    · simp [hh]
    · simp [hh, ancestorAt_eq_none (show t.height < h by omega)]

omit [DecidableEq α] in
/-- Two vectors of one length that agree on the tip's slots are its vector.
Source: none: the invariant of `CChain::SetTip`
Kind: L -/
theorem eq_tipSlots {t : RootedChain α} {v : List (Option (RootedChain α))}
    (hlen : v.length = t.height + 1) (hv : ∀ h ≤ t.height, v[h]? = some (t.ancestorAt h)) :
    v = tipSlots (some t) := by
  apply List.ext_getElem?
  intro h
  rw [getElem?_tipSlots_some]
  split_ifs with hh
  · exact hv h hh
  · exact List.getElem?_eq_none (by omega)

omit [DecidableEq α] in
/-- The resized vector keeps the slots below the new size and fills the new ones with nulls.
Source: `src/chain.cpp` `CChain::SetTip` (`vChain.resize`)
Kind: L -/
theorem getElem?_vectorResize {β : Type} (v : List (Option β)) (n h : Nat) :
    (vectorResize v n)[h]? = if h < n then some (v.getD h none) else none := by
  rw [vectorResize, List.getElem?_append, List.getD_eq_getElem?_getD, List.length_take]
  by_cases hn : h < n
  · rw [if_pos hn]
    by_cases hv : h < v.length
    · -- a slot the resize keeps
      rw [if_pos (by omega), List.getElem?_take, if_pos hn, List.getElem?_eq_getElem hv]
      rfl
    · -- a slot the resize adds
      rw [if_neg (by omega), List.getElem?_replicate, if_pos (by omega),
        List.getElem?_eq_none (by omega)]
      rfl
  · rw [if_neg hn, if_neg (by omega), List.getElem?_replicate, if_neg (by omega)]

/-! ## `SetTip` -/

/-- The slots of the old chain as the loop of `SetTip` finds them: every entry in place has its
ancestors in place below it.
Source: none: the invariant of `CChain::SetTip`
Kind: D -/
def OldSlots (o : Nat → Option (RootedChain α)) : Prop :=
  ∀ h x, o h = some x → ∀ h' ≤ h, o h' = x.ancestorAt h'

omit [DecidableEq α] in
/-- The slots of a chain with a tip, or of the empty chain, are old slots.
Source: `src/chain.cpp` `CChain::SetTip`
Kind: L -/
theorem oldSlots_tipSlots (o : Option (RootedChain α)) :
    OldSlots fun h => (tipSlots o).getD h none := by
  intro h x hx h' hh'
  simp only [getD_tipSlots] at hx ⊢
  cases o with
  | none => cases hx
  | some t =>
    simp only [Option.bind_some] at hx ⊢
    obtain ⟨hmem, hheight⟩ := ancestorAt_eq_some hx
    rw [ancestorAt_of_mem_ancestors hmem (by omega)]

/-- The loop of `SetTip` towards tip `p`, at `q`: slots above `q` hold `p`'s ancestors, slots up to
`q` the old ones.
Source: none: the invariant of the loop of `CChain::SetTip`
Kind: D -/
structure SetTipInv (p q : RootedChain α) (o : Nat → Option (RootedChain α))
    (v : List (Option (RootedChain α))) : Prop where
  length_eq : v.length = p.height + 1
  mem : q ∈ p.ancestors
  above : ∀ h, q.height < h → h ≤ p.height → v[h]? = some (p.ancestorAt h)
  below : ∀ h ≤ q.height, v[h]? = some (o h)

omit [DecidableEq α] in
/-- The loop stops at a slot that already holds `q`: below it, the old tip and `p` share their
ancestors, so the whole vector is `p`'s.
Source: `src/chain.cpp` `CChain::SetTip`
Kind: L -/
theorem eq_tipSlots_of_hit {p q : RootedChain α} {o : Nat → Option (RootedChain α)}
    {v : List (Option (RootedChain α))} (ho : OldSlots o) (hi : SetTipInv p q o v)
    (hc : v.getD q.height none = some q) : v = tipSlots (some p) := by
  have hoq : o q.height = some q := by
    rw [List.getD_eq_getElem?_getD, hi.below q.height le_rfl] at hc
    exact hc
  refine eq_tipSlots hi.length_eq fun h hh => ?_
  by_cases hq : q.height < h
  · exact hi.above h hq hh
  · rw [hi.below h (by omega), ho _ _ hoq h (by omega),
      ancestorAt_of_mem_ancestors hi.mem (by omega)]

omit [DecidableEq α] in
/-- Writing `q` in its slot moves the boundary of the invariant one slot down.
Source: `src/chain.cpp` `CChain::SetTip`
Kind: L -/
theorem setTipInv_set {p q : RootedChain α} {o : Nat → Option (RootedChain α)}
    {v : List (Option (RootedChain α))} (hi : SetTipInv p q o v) (h : Nat) (hh : q.height ≤ h)
    (hp : h ≤ p.height) : (v.set q.height (some q))[h]? = some (p.ancestorAt h) := by
  have hq : p.ancestorAt q.height = some q := mem_ancestors_iff_ancestorAt.mp hi.mem
  rw [List.getElem?_set]
  by_cases he : q.height = h
  · subst he
    rw [if_pos rfl, if_pos (by rw [hi.length_eq]; omega), hq]
  · rw [if_neg he]
    exact hi.above h (by omega) hp

/-- **The loop of `SetTip`** writes `p`'s vector, from any old slots.
Source: `src/chain.cpp` `CChain::SetTip`
Kind: L -/
theorem setTipLoop_eq {p : RootedChain α} {o : Nat → Option (RootedChain α)} (ho : OldSlots o) :
    ∀ (q : RootedChain α) (v : List (Option (RootedChain α))), SetTipInv p q o v →
      CChain.setTipLoop v q = tipSlots (some p) := by
  intro q
  induction q with
  | root u =>
    intro v hi
    rw [CChain.setTipLoop]
    split_ifs with hc
    · exact eq_tipSlots_of_hit ho hi hc
    · -- the genesis slot is the last one written
      exact eq_tipSlots (by simp [hi.length_eq]) fun h hh =>
        setTipInv_set hi h (Nat.zero_le _) hh
  | cons pprev u ih =>
    intro v hi
    rw [CChain.setTipLoop]
    split_ifs with hc
    · exact eq_tipSlots_of_hit ho hi hc
    · apply ih
      have hmem : pprev ∈ p.ancestors :=
        mem_ancestors_trans (by simp [self_mem_ancestors]) hi.mem
      refine ⟨by simp [hi.length_eq], hmem, fun h hh hp => setTipInv_set hi h (by simpa using hh) hp,
        fun h hh => ?_⟩
      rw [List.getElem?_set, if_neg (by simp; omega)]
      exact hi.below h (by simp; omega)

/-- **`SetTip` keeps the vector of the tip**: from the vector of any tip, or the empty chain,
`SetTip(pindex)` leaves `pindex`'s.
Source: `src/chain.cpp` `CChain::SetTip`
Kind: L -/
theorem setTip_tipSlots {c : CChain α} {o : Option (RootedChain α)} (hc : c.vChain = tipSlots o)
    (pindex : Option (RootedChain α)) : (c.setTip pindex).vChain = tipSlots pindex := by
  cases pindex with
  | none => rfl
  | some p =>
    -- after the resize the slots up to `p`'s height are the old ones
    have hi : SetTipInv p p (fun h => (tipSlots o).getD h none)
        (vectorResize c.vChain (p.height + 1)) := by
      refine ⟨by simp [vectorResize]; omega, self_mem_ancestors p, fun h hh hp => by omega,
        fun h hh => ?_⟩
      rw [getElem?_vectorResize, if_pos (by omega), hc]
    exact setTipLoop_eq (oldSlots_tipSlots o) p _ hi

/-! ## The queries on the vector of a tip -/

section queries

variable {c : CChain α} {t : RootedChain α}

omit [DecidableEq α] in
/-- `operator[]` is the tip's `GetAncestor`.
Source: `src/chain.h` `CChain::operator[]`
Kind: L -/
theorem get_of_tipSlots (hc : c.vChain = tipSlots (some t)) (h : Int) :
    c.get h = ancestorOrNull t h := by
  unfold CChain.get ancestorOrNull
  rw [hc, length_tipSlots_some]
  by_cases hneg : h < 0
  · simp [hneg]
  · by_cases hgt : h ≥ (t.height + 1 : Nat)
    · rw [if_pos (.inr hgt), if_neg hneg, ancestorAt_eq_none (by omega)]
    · rw [if_neg (by omega), if_neg hneg, getD_tipSlots, Option.bind_some]

omit [DecidableEq α] in
/-- `Height()` is the tip's height.
Source: `src/chain.h` `CChain::Height`
Kind: L -/
theorem height_of_tipSlots (hc : c.vChain = tipSlots (some t)) : c.height = t.height := by
  simp [CChain.height, hc]

omit [DecidableEq α] in
/-- `Tip()` is the tip.
Source: `src/chain.h` `CChain::Tip`
Kind: L -/
theorem tip_of_tipSlots (hc : c.vChain = tipSlots (some t)) : c.tip = some t := by
  simp only [CChain.tip, hc, length_tipSlots_some, Nat.add_sub_cancel, getD_tipSlots,
    Option.bind_some]
  exact if_pos (Nat.succ_pos _) |>.trans (mem_ancestors_iff_ancestorAt.mp (self_mem_ancestors t))

omit [DecidableEq α] in
/-- `Genesis()` is the tip's ancestor at height `0`.
Source: `src/chain.h` `CChain::Genesis`
Kind: L -/
theorem genesis_of_tipSlots (hc : c.vChain = tipSlots (some t)) : c.genesis = t.ancestorAt 0 := by
  unfold CChain.genesis
  rw [hc, getD_tipSlots, Option.bind_some, if_pos (by simp)]

/-- `Contains` is membership in the tip's ancestry.
Source: `src/chain.h` `CChain::Contains`
Kind: L -/
theorem contains_of_tipSlots (hc : c.vChain = tipSlots (some t)) (b : RootedChain α) :
    c.contains b = true ↔ b ∈ t.ancestors := by
  rw [CChain.contains, decide_eq_true_iff, get_of_tipSlots hc, ancestorOrNull_natCast,
    mem_ancestors_iff_ancestorAt]

end queries

/-- **The active chain over a run of `SetTip` calls.** Every sequence of `SetTip` calls from the
empty chain leaves the vector of the last tip set (empty when none is, or the last is null); on a
chain with a tip, `operator[](h)` is the tip's ancestor at `h`, `Contains(b)` holds exactly for the
tip's ancestors, and `Tip()`, `Genesis()` and `Height()` are the tip, its ancestor at `0` and its
height.
Source: `src/chain.cpp` `CChain::SetTip`; `src/chain.h` `CChain::operator[]`, `Contains`, `Tip`, `Genesis`, `Height`
Kind: P -/
theorem setTip_run (tips : List (Option (RootedChain α))) :
    let c := tips.foldl CChain.setTip ⟨[]⟩
    c.vChain = tipSlots tips.getLast?.join ∧
      ∀ t, tips.getLast?.join = some t →
        (∀ h : Int, c.get h = ancestorOrNull t h) ∧ (∀ b, c.contains b = true ↔ b ∈ t.ancestors) ∧
        c.tip = some t ∧ c.genesis = t.ancestorAt 0 ∧ c.height = t.height := by
  -- the vector over any prefix of the calls
  have hrun : ∀ (tips : List (Option (RootedChain α))) (c : CChain α) (o : Option (RootedChain α)),
      c.vChain = tipSlots o → (tips.foldl CChain.setTip c).vChain = tipSlots (tips.getLast?.getD o) := by
    intro tips
    induction tips with
    | nil => intro c o hc; simpa using hc
    | cons x tips ih =>
      intro c o hc
      rw [List.foldl_cons, ih (c.setTip x) x (setTip_tipSlots hc x)]
      cases tips with
      | nil => simp
      | cons y tips => simp [List.getLast?_cons]
  have hv : (tips.foldl CChain.setTip ⟨[]⟩).vChain = tipSlots tips.getLast?.join := by
    rw [hrun tips ⟨[]⟩ none rfl]
    cases tips.getLast? <;> rfl
  refine ⟨hv, fun t ht => ?_⟩
  rw [ht] at hv
  exact ⟨get_of_tipSlots hv, contains_of_tipSlots hv, tip_of_tipSlots hv, genesis_of_tipSlots hv,
    height_of_tipSlots hv⟩

/-! ## Walks down to the chain -/

section walks

variable {c : CChain α} {t : RootedChain α} {pskip : SkipPointers α}

/-- The loop of `FindFork` finds the last common ancestor, from any entry.
Source: `src/chain.cpp` `CChain::FindFork`
Kind: L -/
theorem findForkLoop_lastCommon (hc : c.vChain = tipSlots (some t)) :
    ∀ q : RootedChain α, LastCommon q t (c.findForkLoop q) := by
  intro q
  induction q with
  | root u =>
    rw [CChain.findForkLoop]
    split_ifs with hq
    · exact lastCommon_of_mem ((contains_of_tipSlots hc _).mp hq)
    · exact lastCommon_root_of_not_mem fun hm => hq ((contains_of_tipSlots hc _).mpr hm)
  | cons pprev u ih =>
    rw [CChain.findForkLoop]
    split_ifs with hq
    · exact lastCommon_of_mem ((contains_of_tipSlots hc _).mp hq)
    · -- an entry off the chain shares its parent's common ancestors
      exact (lastCommon_congr (common_cons_iff_of_not_mem
        fun hm => hq ((contains_of_tipSlots hc _).mpr hm))).mpr ih

omit [DecidableEq α] in
/-- The lowering of `FindFork` and `IsForkAtMost` reaches the ancestor at the lower of the two
heights.
Source: `src/chain.cpp` `CChain::FindFork`, `CChain::IsForkAtMost`
Kind: L -/
theorem lowerToHeight_spec (hc : c.vChain = tipSlots (some t)) (hv : ∀ b, SkipValid pskip b)
    (p : RootedChain α) :
    ∃ p', c.lowerToHeight pskip p = .ok (some p') ∧ p' ∈ p.ancestors ∧
      p'.height = min p.height t.height := by
  unfold CChain.lowerToHeight
  rw [height_of_tipSlots hc]
  by_cases hgt : (p.height : Int) > t.height
  · rw [if_pos hgt]
    obtain ⟨p', hget, -, hmem, hheight⟩ := getAncestorSkip_of_le hv (c := p) (h := t.height)
      (by omega)
    exact ⟨p', hget, hmem, by omega⟩
  · rw [if_neg hgt]
    exact ⟨p, rfl, self_mem_ancestors p, by omega⟩

/-- **`FindFork` finds the fork**: on the chain of tip `t`, with valid `pskip` pointers,
`FindFork(pindex)` is the last common ancestor of `pindex` and `t`, null when they have none.
Source: `src/chain.cpp` `CChain::FindFork`
Kind: P -/
theorem findFork_lastCommon (hc : c.vChain = tipSlots (some t)) (hv : ∀ b, SkipValid pskip b)
    (p : RootedChain α) :
    ∃ r, c.findFork pskip (some p) = .ok r ∧ LastCommon p t r := by
  obtain ⟨p', hlow, hmem, hheight⟩ := lowerToHeight_spec hc hv p
  refine ⟨c.findForkLoop p', by simp [CChain.findFork, hlow], ?_⟩
  -- lowering to the tip's height keeps the common ancestors
  exact (lastCommon_congr (common_iff_of_mem_ancestors hmem (by omega))).mpr
    (findForkLoop_lastCommon hc p')

/-- A side branch of two blocks against a chain of one: the fork is the genesis entry.
Source: `src/chain.cpp` `CChain::FindFork`
Kind: W -/
theorem findFork_lastCommon_branch :
    ∃ r, (⟨tipSlots (some (.cons (.root 0) 1))⟩ : CChain Nat).findFork (fun _ => none)
        (some (.cons (.cons (.root 0) 2) 3)) = .ok r ∧
      LastCommon (.cons (.cons (.root 0) 2) 3) (.cons (.root 0) 1) r :=
  findFork_lastCommon rfl (fun _ => .inl rfl) _

/-- At an entry of the chain the loop of `IsForkAtMost` holds, with the entry its own fork.
Source: `src/chain.cpp` `CChain::IsForkAtMost`
Kind: L -/
theorem isForkAtMostLoop_iff_of_contains (hc : c.vChain = tipSlots (some t)) {q : RootedChain α}
    (hq : c.contains q = true) (maxDepth : Int) :
    c.isForkAtMostLoop q maxDepth = true ↔
      ∃ f, LastCommon q t (some f) ∧ (q.height : Int) - f.height ≤ max maxDepth 0 := by
  rw [CChain.isForkAtMostLoop.eq_def, if_pos hq]
  exact ⟨fun _ => ⟨q, lastCommon_of_mem ((contains_of_tipSlots hc q).mp hq), by simp⟩,
    fun _ => rfl⟩

/-- The loop of `IsForkAtMost` holds exactly when the entry is at most `max maxDepth 0` blocks above
its last common ancestor with the tip.
Source: `src/chain.cpp` `CChain::IsForkAtMost`
Kind: L -/
theorem isForkAtMostLoop_iff (hc : c.vChain = tipSlots (some t)) :
    ∀ (q : RootedChain α) (maxDepth : Int), c.isForkAtMostLoop q maxDepth = true ↔
      ∃ f, LastCommon q t (some f) ∧ (q.height : Int) - f.height ≤ max maxDepth 0 := by
  intro q
  induction q with
  | root u =>
    intro maxDepth
    by_cases hq : c.contains (.root u) = true
    · exact isForkAtMostLoop_iff_of_contains hc hq maxDepth
    · -- a genesis entry off the chain has no common ancestor with it
      have hnone := lastCommon_root_of_not_mem fun hm => hq ((contains_of_tipSlots hc _).mpr hm)
      rw [CChain.isForkAtMostLoop]
      simp only [hq, if_false, Bool.false_eq_true]
      split_ifs <;> simp only [false_iff, not_exists, not_and] <;>
        exact fun f hf _ => hnone f hf.1 hf.2.1
  | cons pprev u ih =>
    intro maxDepth
    by_cases hq : c.contains (.cons pprev u) = true
    · exact isForkAtMostLoop_iff_of_contains hc hq maxDepth
    · rw [CChain.isForkAtMostLoop]
      have hnot : RootedChain.cons pprev u ∉ t.ancestors := fun hm =>
        hq ((contains_of_tipSlots hc _).mpr hm)
      have hcongr := fun r => lastCommon_congr (r := r) (common_cons_iff_of_not_mem hnot)
      -- the last common ancestor is strictly below the entry, which is off the chain
      have hbelow : ∀ f, LastCommon (.cons pprev u) t (some f) → f.height ≤ pprev.height := by
        intro f hf
        have hne : f ≠ .cons pprev u := fun he => hnot (he ▸ hf.2.1)
        have := height_lt_of_mem_ancestors hf.1 hne
        simp only [height_cons] at this
        omega
      simp only [hq, if_false, Bool.false_eq_true]
      by_cases hd : maxDepth ≤ 0
      · rw [if_pos hd]
        simp only [Bool.false_eq_true, false_iff, not_exists, not_and]
        intro f hf
        have := hbelow f hf
        simp only [height_cons]
        omega
      · rw [if_neg hd, ih]
        constructor
        · rintro ⟨f, hf, hdepth⟩
          exact ⟨f, (hcongr _).mpr hf, by simp only [height_cons]; omega⟩
        · rintro ⟨f, hf, hdepth⟩
          have := hbelow f hf
          exact ⟨f, (hcongr _).mp hf, by simp only [height_cons] at hdepth; omega⟩

/-- **`IsForkAtMost` measures the fork's depth**: on the chain of tip `t`, with valid `pskip`
pointers, `IsForkAtMost(pindex, maxDepth)` returns and holds exactly when `pindex` and `t` have a
last common ancestor at most `max maxDepth 0` blocks below the lower of their two heights.
Source: `src/chain.cpp` `CChain::IsForkAtMost`
Kind: P -/
theorem isForkAtMost_iff (hc : c.vChain = tipSlots (some t)) (hv : ∀ b, SkipValid pskip b)
    (p : RootedChain α) (maxDepth : Int) :
    ∃ b, c.isForkAtMost pskip (some p) maxDepth = .ok b ∧
      (b = true ↔ ∃ f, LastCommon p t (some f) ∧
        ((min p.height t.height : Nat) : Int) - f.height ≤ max maxDepth 0) := by
  obtain ⟨p', hlow, hmem, hheight⟩ := lowerToHeight_spec hc hv p
  refine ⟨c.isForkAtMostLoop p' maxDepth, by simp [CChain.isForkAtMost, hlow], ?_⟩
  rw [isForkAtMostLoop_iff hc, ← hheight]
  have hcongr := fun r => lastCommon_congr (r := r) (common_iff_of_mem_ancestors hmem
    (show min p.height t.height ≤ p'.height by omega))
  exact exists_congr fun f => and_congr_left fun _ => (hcongr _).symm

/-- A side branch of two blocks against a chain of one, with `maxDepth = 1`.
Source: `src/chain.cpp` `CChain::IsForkAtMost`
Kind: W -/
theorem isForkAtMost_iff_branch :
    ∃ b, (⟨tipSlots (some (.cons (.root 0) 1))⟩ : CChain Nat).isForkAtMost (fun _ => none)
        (some (.cons (.cons (.root 0) 2) 3)) 1 = .ok b ∧
      (b = true ↔ ∃ f, LastCommon (.cons (.cons (.root 0) 2) 3) (.cons (.root 0) 1) (some f) ∧
        ((min 2 1 : Nat) : Int) - f.height ≤ max 1 0) :=
  isForkAtMost_iff rfl (fun _ => .inl rfl) _ 1

end walks

/-! ## `GetLocator` -/

/-- How far below its start the walk of `GetLocator` stands after `k` hashes: one height a step
for the first ten steps, then `nStep = 2 ^ (k - 10)` doubling each step.
Source: none: the invariant of the loop of `CChain::GetLocator`
Kind: D -/
def locatorDepth (k : Nat) : Nat := min k 10 + 2 ^ (k - 10) - 1

/-- One more hash moves the walk `nStep` heights further down.
Source: `src/chain.cpp` `CChain::GetLocator` (`nStep`)
Kind: L -/
theorem locatorDepth_succ (k : Nat) : locatorDepth (k + 1) = locatorDepth k + 2 ^ (k - 10) := by
  unfold locatorDepth
  by_cases hk : k < 10
  · rw [show k + 1 - 10 = 0 by omega, show k - 10 = 0 by omega]
    simp only [pow_zero]
    omega
  · rw [show k + 1 - 10 = k - 10 + 1 by omega, pow_succ]
    have := Nat.one_le_two_pow (n := k - 10)
    omega

/-- The loop of `GetLocator` with `k` hashes in, at height `h` below the start `H`: past the
first eleven hashes the step `2 ^ (k - 11)` was taken from above height `0`, and the entry is at
least `locatorDepth k` below the start unless it is the genesis entry.
Source: none: the invariant of the loop of `CChain::GetLocator`
Kind: D -/
def LocatorInv (H k h : Nat) : Prop :=
  (k ≤ 11 ∨ 2 ^ (k - 11) ≤ H) ∧ (h = 0 ∨ h + locatorDepth k ≤ H)

/-- A step from above the genesis entry keeps the invariant.
Source: `src/chain.cpp` `CChain::GetLocator`
Kind: L -/
theorem locatorInv_step {H k h : Nat} (hinv : LocatorInv H k h) (h0 : h ≠ 0) :
    LocatorInv H (k + 1) (h - 2 ^ (k - 10)) := by
  obtain ⟨-, hdepth⟩ := hinv
  have hd : h + locatorDepth k ≤ H := hdepth.resolve_left h0
  refine ⟨?_, ?_⟩
  · -- past ten hashes the depth is `9 + 2 ^ (k - 10)`, below the start
    by_cases hk : k + 1 ≤ 11
    · exact .inl hk
    · right
      rw [show k + 1 - 11 = k - 10 by omega]
      have : locatorDepth k = 9 + 2 ^ (k - 10) := by
        unfold locatorDepth
        have := Nat.one_le_two_pow (n := k - 10)
        omega
      omega
  · by_cases hs : h ≤ 2 ^ (k - 10)
    · exact .inl (by omega)
    · right
      rw [locatorDepth_succ]
      omega

/-- While the walk is above the genesis entry and below `2 ^ 30`, doubling `nStep` stays in range.
Source: `src/chain.cpp` `CChain::GetLocator` (`nStep *= 2`)
Kind: L -/
theorem locator_step_lt {H k h : Nat} (hinv : LocatorInv H k h) (h0 : h ≠ 0) (hH : H ≤ 2 ^ 30)
    (hk : 10 ≤ k) : 2 ^ (k - 10) * 2 < 2 ^ 31 := by
  have hd : h + locatorDepth k ≤ H := hinv.2.resolve_left h0
  have : locatorDepth k = 9 + 2 ^ (k - 10) := by
    unfold locatorDepth
    have := Nat.one_le_two_pow (n := k - 10)
    omega
  omega

/-- The invariant bounds the number of hashes: `k` of them before the last.
Source: `src/chain.cpp` `CChain::GetLocator`
Kind: L -/
theorem locator_length_le {H k h : Nat} (hinv : LocatorInv H k h) :
    k + 1 ≤ Nat.log 2 H + 12 := by
  rcases hinv.1 with hk | hpow
  · omega
  · have := Nat.le_log_of_pow_le one_lt_two hpow
    omega

section locator

variable {β : Type} {c : CChain α} {t : RootedChain α} {pskip : SkipPointers α}

/-- Both lookups of `GetLocator` give the ancestor at the lower height: `operator[]` on the chain,
`GetAncestor` off it.
Source: `src/chain.cpp` `CChain::GetLocator`, `CBlockIndex::GetAncestor`
Kind: L -/
theorem locator_lookup_eq (hc : c.vChain = tipSlots (some t)) (hv : ∀ b, SkipValid pskip b)
    {q : RootedChain α} {h : Nat} (hh : h ≤ q.height) :
    (if c.contains q then .ok (c.get (h : Int)) else getAncestorSkip pskip q (h : Int)) =
      (.ok (q.ancestorAt h) : Except Fault (Option (RootedChain α))) := by
  split_ifs with hq
  · rw [get_of_tipSlots hc, ancestorOrNull_natCast,
      ← ancestorAt_of_mem_ancestors ((contains_of_tipSlots hc q).mp hq) hh]
  · rw [getAncestorSkip_eq (fun b _ => hv b), ancestorOrNull_natCast]

/-- The doubling of `nStep` after ten hashes, as the power of the next turn.
Source: `src/chain.cpp` `CChain::GetLocator` (`nStep *= 2`)
Kind: L -/
theorem locator_nStep_eq {H k h : Nat} (hinv : LocatorInv H k h) (h0 : h ≠ 0) (hH : H ≤ 2 ^ 30) :
    (if k + 1 > 10 then intMul ((2 ^ (k - 10) : Nat) : Int) 2
      else .ok ((2 ^ (k - 10) : Nat) : Int)) = .ok ((2 ^ (k + 1 - 10) : Nat) : Int) := by
  by_cases hk : k + 1 > 10
  · have hlt : ((2 ^ (k - 10) : Nat) : Int) * 2 < 2 ^ 31 := by
      exact_mod_cast locator_step_lt hinv h0 hH (by omega)
    have hpos : (0 : Int) ≤ ((2 ^ (k - 10) : Nat) : Int) := Int.natCast_nonneg _
    rw [if_pos hk, intMul, if_pos ⟨by omega, hlt⟩, show k + 1 - 10 = k - 10 + 1 by omega, pow_succ]
    push_cast
    rfl
  · rw [if_neg hk, show k + 1 - 10 = 0 by omega, show k - 10 = 0 by omega]

/-- **The loop of `GetLocator`** from `q`, with the hashes `vHave` in: it returns, after `vHave`,
the hashes of ancestors of `q` at strictly decreasing heights from `q`'s own down to the genesis
entry, within the bound on their number.
Source: `src/chain.cpp` `CChain::GetLocator`
Kind: L -/
theorem getLocatorLoop_spec (hc : c.vChain = tipSlots (some t)) (hv : ∀ b, SkipValid pskip b)
    (getBlockHash : RootedChain α → β) {H : Nat} (hH : H ≤ 2 ^ 30) :
    ∀ (fuel : Nat) (q : RootedChain α) (vHave : List β), q.height < fuel →
      LocatorInv H vHave.length q.height →
      ∃ bs : List (RootedChain α),
        c.getLocatorLoop pskip getBlockHash fuel q ((2 ^ (vHave.length - 10) : Nat) : Int) vHave =
          .ok (vHave ++ bs.map getBlockHash) ∧
        bs.head? = some q ∧ bs.getLast? = q.ancestorAt 0 ∧ (∀ b ∈ bs, b ∈ q.ancestors) ∧
        (bs.map RootedChain.height).Pairwise (· > ·) ∧
        vHave.length + bs.length ≤ Nat.log 2 H + 12 := by
  intro fuel
  induction fuel with
  | zero => intro q vHave hq; omega
  | succ fuel ih =>
    intro q vHave hfuel hinv
    have hself : q.ancestorAt q.height = some q :=
      mem_ancestors_iff_ancestorAt.mp (self_mem_ancestors q)
    rw [CChain.getLocatorLoop]
    dsimp only
    by_cases h0 : q.height = 0
    · -- the genesis entry is the last hash
      rw [if_pos h0]
      refine ⟨[q], by simp, rfl, by rw [← h0, hself]; rfl, by simp [self_mem_ancestors],
        by simp, ?_⟩
      have := locator_length_le hinv
      simp only [List.length_singleton]
      omega
    · rw [if_neg h0]
      -- one step back, by `2 ^ (k - 10)` heights but not below the genesis entry
      have hs := Nat.one_le_two_pow (n := vHave.length - 10)
      have hnext : max ((q.height : Int) - ((2 ^ (vHave.length - 10) : Nat) : Int)) 0 =
          ((q.height - 2 ^ (vHave.length - 10) : Nat) : Int) := by omega
      rw [hnext, locator_lookup_eq hc hv (Nat.sub_le _ _), except_ok_bind, List.length_append,
        List.length_singleton, locator_nStep_eq hinv h0 hH, except_ok_bind]
      obtain ⟨q', hq'⟩ := exists_ancestorAt (c := q) (h := q.height - 2 ^ (vHave.length - 10))
        (Nat.sub_le _ _)
      obtain ⟨hmem', hheight'⟩ := ancestorAt_eq_some hq'
      rw [hq']
      dsimp only
      obtain ⟨bs, hrun, hhead, hlast, hmem, hpair, hlen⟩ :=
        ih q' (vHave ++ [getBlockHash q]) (by omega)
          (by rw [List.length_append, List.length_singleton, hheight']; exact locatorInv_step hinv h0)
      simp only [List.length_append, List.length_singleton] at hrun hlen
      refine ⟨q :: bs, by rw [hrun]; simp, rfl, ?_, ?_, ?_, by simp only [List.length_cons]; omega⟩
      · -- the last hash is the genesis entry's, below `q'` as below `q`
        obtain ⟨b, bs', rfl⟩ := List.exists_cons_of_ne_nil
          (show bs ≠ [] from fun he => by simp [he] at hhead)
        rw [List.getLast?_cons_cons, hlast, ancestorAt_of_mem_ancestors hmem' (Nat.zero_le _)]
      · intro b hb
        rcases List.mem_cons.mp hb with rfl | hb
        · exact self_mem_ancestors b
        · exact mem_ancestors_trans (hmem b hb) hmem'
      · -- every later hash is of an entry no higher than `q'`, below `q`
        refine List.pairwise_cons.mpr ⟨fun x hx => ?_, hpair⟩
        obtain ⟨b, hb, rfl⟩ := List.mem_map.mp hx
        have := height_le_of_mem_ancestors (hmem b hb)
        omega

/-- **`GetLocator` lists the entry's ancestry back to genesis in logarithmically many hashes**: on
the chain of tip `t`, with valid `pskip` pointers, `GetLocator(pindex)` for an entry no higher than
`2 ^ 30` returns the hashes of ancestors of `pindex` at strictly decreasing heights, from `pindex`
itself to the genesis entry, at most `log₂ nHeight + 12` of them.
Source: `src/chain.cpp` `CChain::GetLocator`
Kind: P -/
theorem getLocator_spec (hc : c.vChain = tipSlots (some t)) (hv : ∀ b, SkipValid pskip b)
    (getBlockHash : RootedChain α → β) (p : RootedChain α) (hH : p.height ≤ 2 ^ 30) :
    ∃ bs : List (RootedChain α), c.getLocator pskip getBlockHash (some p) = .ok (bs.map getBlockHash) ∧
      bs.head? = some p ∧ bs.getLast? = p.ancestorAt 0 ∧ (∀ b ∈ bs, b ∈ p.ancestors) ∧
      (bs.map RootedChain.height).Pairwise (· > ·) ∧ bs.length ≤ Nat.log 2 p.height + 12 := by
  obtain ⟨bs, hrun, hrest⟩ := getLocatorLoop_spec hc hv getBlockHash hH (p.height + 1) p []
    (Nat.lt_succ_self _) ⟨.inl (Nat.zero_le _), .inr (by simp [locatorDepth])⟩
  refine ⟨bs, ?_, by simpa using hrest⟩
  simpa [CChain.getLocator] using hrun

/-- The locator of the tip of a chain of two entries.
Source: `src/chain.cpp` `CChain::GetLocator`
Kind: W -/
theorem getLocator_spec_two :
    ∃ bs : List (RootedChain Nat),
      (⟨tipSlots (some (.cons (.root 0) 1))⟩ : CChain Nat).getLocator (fun _ => none)
          RootedChain.height (some (.cons (.root 0) 1)) = .ok (bs.map RootedChain.height) ∧
        bs.head? = some (.cons (.root 0) 1) ∧
        bs.getLast? = (RootedChain.cons (.root 0) 1).ancestorAt 0 ∧
        (∀ b ∈ bs, b ∈ (RootedChain.cons (.root 0) 1).ancestors) ∧
        (bs.map RootedChain.height).Pairwise (· > ·) ∧
        bs.length ≤ Nat.log 2 (RootedChain.cons (.root 0) 1).height + 12 :=
  getLocator_spec rfl (fun _ => .inl rfl) _ _ (by decide)

end locator

/-! ## `LastCommonAncestor` -/

omit [DecidableEq α] in
/-- The entries of height `0` are the genesis entries.
Source: none: infrastructure
Kind: L -/
theorem height_eq_zero_iff_root {a : RootedChain α} : a.height = 0 ↔ ∃ u, a = .root u := by
  cases a with
  | root u => simp [RootedChain.height]
  | cons pa u => simp

/-- The loop of `LastCommonAncestor`, from two entries of one height, stops with both pointers
equal to their last common ancestor.
Source: `src/chain.cpp` `LastCommonAncestor`
Kind: L -/
theorem lastCommonLoop_spec :
    ∀ (a b : RootedChain α), a.height = b.height →
      (lastCommonLoop a b).1 = (lastCommonLoop a b).2 ∧ LastCommon a b (lastCommonLoop a b).1 := by
  intro a
  induction a with
  | root u =>
    intro b hh
    obtain ⟨v, rfl⟩ := height_eq_zero_iff_root.mp hh.symm
    unfold lastCommonLoop
    split_ifs with he
    · rw [he]
      exact ⟨rfl, lastCommon_of_mem (self_mem_ancestors _)⟩
    · -- two different genesis entries: both pointers go null together
      refine ⟨rfl, lastCommon_root_of_not_mem fun hm => he ?_⟩
      simpa using hm
  | cons pa u ih =>
    intro b hh
    cases b with
    | root v => simp [RootedChain.height] at hh
    | cons pb v =>
      unfold lastCommonLoop
      split_ifs with he
      · rw [he]
        exact ⟨rfl, lastCommon_of_mem (self_mem_ancestors _)⟩
      · have hh' : pa.height = pb.height := by simpa using hh
        obtain ⟨heq, hlast⟩ := ih pb hh'
        exact ⟨heq, (lastCommon_congr (common_cons_cons_iff he hh')).mpr hlast⟩

/-- **`LastCommonAncestor` finds the fork of two entries**: with valid `pskip` pointers, it returns
the last common ancestor of `pa` and `pb`, null when their genesis entries differ, and its
`assert(pa == pb)` never fails.
Source: `src/chain.cpp` `LastCommonAncestor`
Kind: P -/
theorem lastCommonAncestor_lastCommon {pskip : SkipPointers α} (hv : ∀ b, SkipValid pskip b)
    (pa pb : RootedChain α) :
    ∃ r, lastCommonAncestor pskip pa pb = .ok r ∧ LastCommon pa pb r := by
  -- after the lowering both entries stand at the lower height, with the same common ancestors
  unfold lastCommonAncestor
  by_cases hab : pa.height > pb.height
  · obtain ⟨a', ha', -, hmem, hheight⟩ := getAncestorSkip_of_le hv (c := pa) (h := pb.height)
      hab.le
    obtain ⟨heq, hlast⟩ := lastCommonLoop_spec a' pb hheight
    refine ⟨(lastCommonLoop a' pb).1, ?_, ?_⟩
    · simp [hab, ha', heq]
    · exact (lastCommon_congr (common_iff_of_mem_ancestors hmem (by omega))).mpr hlast
  · by_cases hba : pb.height > pa.height
    · obtain ⟨b', hb', -, hmem, hheight⟩ := getAncestorSkip_of_le hv (c := pb) (h := pa.height)
        hba.le
      obtain ⟨heq, hlast⟩ := lastCommonLoop_spec pa b' hheight.symm
      refine ⟨(lastCommonLoop pa b').1, ?_, ?_⟩
      · simp [hab, hba, hb', heq]
      · have hswap := (lastCommon_congr (r := (lastCommonLoop pa b').1)
          (common_iff_of_mem_ancestors hmem (show min pb.height pa.height ≤ b'.height by omega))).mpr
          (lastCommon_comm.mp hlast)
        exact lastCommon_comm.mp hswap
    · obtain ⟨heq, hlast⟩ := lastCommonLoop_spec pa pb (by omega)
      exact ⟨(lastCommonLoop pa pb).1, by simp [hab, hba, heq], hlast⟩

/-- Two entries of different genesis blocks have no common ancestor.
Source: `src/chain.cpp` `LastCommonAncestor`
Kind: W -/
theorem lastCommonAncestor_lastCommon_two_genesis :
    ∃ r, lastCommonAncestor (fun _ => none) (.cons (.root 0) 1) (.root 5) = .ok r ∧
      LastCommon (.cons (.root 0) 1) (.root 5) r :=
  lastCommonAncestor_lastCommon (fun _ => .inl rfl) _ _

end BwsCoin.Chain
