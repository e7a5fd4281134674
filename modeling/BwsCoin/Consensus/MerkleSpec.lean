import Mathlib
import BwsCoin.Consensus.Merkle
import BwsCoin.Lib.MerkleTree

/-!
# `MerkleComputation` builds the level-by-level tree

The constant-space computation of `src/consensus/merkle.cpp` against the tree it stands for,
`MerkleTree.root` over `hash`: the level-by-level tree whose odd last nodes are paired with
themselves, as the comment at the top of the source draws it.

* `merkleCarry_spec` — a carry from level `k` on a count `m` with `2 ^ k ∣ m` stops at the level
  `t` with `2 ^ t ∣ m` and `¬ 2 ^ (t + 1) ∣ m`, with the last node of level `t`, having compared
  the two nodes of each level where a pair ends at `m`.
* `LeafInv` — after the leaves `l`, `inner[L]` is the last node of level `L` for each set bit of
  `count`, and `mutated` says whether `l` has two equal complete sibling nodes
  (`leafInv_merkleLeaf`, `leafInv_foldl`).
* `SweepInv` — each round of the final sweep stands for appending a copy of the last block of
  the level it is at, which keeps the root (`MerkleTree.root_append_lastBlock`); the sweep ends
  at a power of two, whose root is its one top node (`merkleSweep_spec`).
* **`computeMerkleRoot_eq`** — up to `2 ^ 31` leaves, the root is `MerkleTree.root` and the
  mutation flag is `MerkleTree.Mutated`.
* **`checkBlockMerkleRoot_rejects_duplicated_tail`** — the transactions of a block with their
  last `2 ^ k` repeated, where the block has an odd number `≥ 3` of such blocks, have the
  block's root, and `CheckBlock` rejects them as `bad-txns-duplicate`.
* **`checkBlockMerkleRoot_unique`** — two lists of transactions of one depth that both pass the
  check against one header root have the same transaction hashes, unless the double SHA-256
  takes two different pairs that the two computations hash to one value.
-/

namespace BwsCoin.Consensus

open MerkleTree Primitives

/-! ## Counting in binary -/

/-- The test of the source on bit `L` of `count` is `Nat.testBit`.
Source: `src/consensus/merkle.cpp` `MerkleComputation` (`count & (((uint32_t)1) << level)`)
Kind: L -/
theorem and_one_shiftLeft_ne_zero_iff (n L : Nat) : n &&& (1 <<< L) ≠ 0 ↔ n.testBit L = true := by
  rw [Nat.one_shiftLeft, Nat.and_two_pow]
  cases n.testBit L <;> simp

/-- Below a multiple of `2 ^ L`, bit `L` is clear exactly when `2 ^ (L + 1)` divides too.
Source: none: infrastructure (binary counting)
Kind: L -/
theorem testBit_eq_false_iff_dvd {m L : Nat} (h : 2 ^ L ∣ m) :
    m.testBit L = false ↔ 2 ^ (L + 1) ∣ m := by
  obtain ⟨c, rfl⟩ := h
  rw [Nat.testBit_eq_decide_div_mod_eq, Nat.mul_div_cancel_left c (Nat.two_pow_pos L), pow_succ,
    Nat.mul_dvd_mul_iff_left (Nat.two_pow_pos L), decide_eq_false_iff_not,
    ← Nat.two_dvd_ne_zero, not_not]

/-- Bits below the lowest set one are clear.
Source: none: infrastructure (binary counting)
Kind: L -/
theorem testBit_eq_false_of_dvd {m L t : Nat} (h : 2 ^ t ∣ m) (hL : L < t) :
    m.testBit L = false :=
  (testBit_eq_false_iff_dvd ((pow_dvd_pow 2 hL.le).trans h)).mpr ((pow_dvd_pow 2 hL).trans h)

/-- The number of nodes of level `L` below `2 ^ (L + 1) * d - r`, for `0 < r ≤ 2 ^ L`.
Source: none: infrastructure (binary counting)
Kind: L -/
theorem sub_div_two_pow {L d r : Nat} (hd : 0 < d) (hr₀ : 0 < r) (hr : r ≤ 2 ^ L) :
    (2 ^ (L + 1) * d - r) / 2 ^ L = 2 * d - 1 := by
  have hpow : 2 ^ (L + 1) * d = 2 * d * 2 ^ L := by ring
  have hsub : (2 * d - 1) * 2 ^ L = 2 * d * 2 ^ L - 2 ^ L := Nat.sub_one_mul _ _
  have hle : 2 ^ L ≤ 2 * d * 2 ^ L := Nat.le_mul_of_pos_left _ (by omega)
  apply Nat.div_eq_of_lt_le
  · rw [hpow, hsub]
    omega
  · rw [hpow, Nat.sub_add_cancel (by omega : 1 ≤ 2 * d)]
    omega

/-- Adding `2 ^ k` to a multiple of `2 ^ k` changes its quotient by a higher `2 ^ L` only by
reaching a multiple of `2 ^ L`.
Source: none: infrastructure (binary counting)
Kind: L -/
theorem add_div_two_pow_of_not_dvd {c k L : Nat} (hk : 2 ^ k ∣ c) (hkL : k < L)
    (hn : ¬ 2 ^ L ∣ c + 2 ^ k) : (c + 2 ^ k) / 2 ^ L = c / 2 ^ L := by
  have hkL' : 2 ^ k ∣ 2 ^ L := pow_dvd_pow 2 hkL.le
  have hr : 2 ^ k ∣ c % 2 ^ L := (Nat.dvd_mod_iff hkL').mpr hk
  have hlt : c % 2 ^ L < 2 ^ L := Nat.mod_lt _ (Nat.two_pow_pos L)
  -- the remainder and `2 ^ L` are multiples of `2 ^ k`, so the remainder is at most `2 ^ L - 2 ^ k`
  have hroom : c % 2 ^ L + 2 ^ k ≤ 2 ^ L := by
    obtain ⟨x, hx⟩ := hr
    obtain ⟨y, hy⟩ := hkL'
    rw [hx, hy] at hlt ⊢
    have : x < y := Nat.lt_of_mul_lt_mul_left hlt
    calc 2 ^ k * x + 2 ^ k = 2 ^ k * (x + 1) := by ring
      _ ≤ 2 ^ k * y := Nat.mul_le_mul_left _ this
  have hdm := Nat.div_add_mod c (2 ^ L)
  have hne : c % 2 ^ L + 2 ^ k ≠ 2 ^ L := fun heq => hn ⟨c / 2 ^ L + 1, by
    rw [mul_add, mul_one]
    omega⟩
  conv_lhs => rw [← hdm, add_assoc]
  rw [Nat.mul_add_div (Nat.two_pow_pos L),
    Nat.div_eq_of_lt (show c % 2 ^ L + 2 ^ k < 2 ^ L by omega), Nat.add_zero]

/-- A multiple of `c` below another leaves room for `c` more.
Source: none: infrastructure (binary counting)
Kind: L -/
theorem add_le_of_dvd_of_lt {a b c : Nat} (hab : a < b) (ha : c ∣ a) (hb : c ∣ b) :
    a + c ≤ b := by
  obtain ⟨x, rfl⟩ := ha
  obtain ⟨y, rfl⟩ := hb
  have : x < y := Nat.lt_of_mul_lt_mul_left hab
  calc c * x + c = c * (x + 1) := by ring
    _ ≤ c * y := Nat.mul_le_mul_left _ this

/-- A level from `k` on is `k` itself or one from `k + 1` on.
Source: none: infrastructure
Kind: L -/
theorem exists_le_iff {P : Nat → Prop} {k : Nat} :
    (∃ L, k ≤ L ∧ P L) ↔ P k ∨ ∃ L, k + 1 ≤ L ∧ P L := by
  constructor
  · rintro ⟨L, hL, hP⟩
    rcases Nat.eq_or_lt_of_le hL with rfl | hlt
    · exact .inl hP
    · exact .inr ⟨L, hlt, hP⟩
  · rintro (hP | ⟨L, hL, hP⟩)
    · exact ⟨k, le_rfl, hP⟩
    · exact ⟨L, by omega, hP⟩

/-! ## The last nodes when a block is appended -/

section append

variable (hash : Uint256 → Uint256 → Uint256)

/-- A pair of level `L ≥ k` that ends at `c + 2 ^ k` has on its left the last node
of level `L` below `c`, which the appended leaves do not change.
Source: `src/consensus/merkle.cpp` `MerkleComputation`
Kind: L -/
theorem node_pair_left {v w : List Uint256} {k L : Nat} {a : Uint256} (hkL : k ≤ L) (hd : 2 ^ (L + 1) ∣ v.length + 2 ^ k)
    (hnode : v.length.testBit L = true → node hash L (v.length / 2 ^ L - 1) v = some a) :
    node hash L ((v.length + 2 ^ k) / 2 ^ L - 2) (v ++ w) = some a := by
  obtain ⟨d, hd⟩ := hd
  have hd0 : 0 < d := Nat.pos_of_ne_zero (by rintro rfl; simp at hd)
  have hquot : v.length / 2 ^ L = 2 * d - 1 := by
    have := sub_div_two_pow (L := L) hd0 (Nat.two_pow_pos k)
      (pow_le_pow_right₀ (by norm_num) hkL)
    rwa [← hd, Nat.add_sub_cancel] at this
  -- the pair's left node is the last one of `v` on its level, so bit `L` of `c` is set
  have hbit : v.length.testBit L = true := by
    rw [Nat.testBit_eq_decide_div_mod_eq, hquot, decide_eq_true_iff]
    omega
  have hlast := hnode hbit
  rw [hquot] at hlast
  have hcomplete : (2 * d - 1 - 1 + 1) * 2 ^ L ≤ v.length := by
    rw [Nat.sub_add_cancel (by omega), ← hquot]
    exact Nat.div_mul_le_self _ _
  rw [hd, two_pow_succ_mul_div, show 2 * d - 2 = 2 * d - 1 - 1 by omega,
    node_append_of_le hash _ hcomplete, hlast]

/-- Above the lowest set bit of `c + 2 ^ k`, for `2 ^ k ∣ c`, the last node of a level whose bit
is set is the last one below `c`, which the appended leaves do not change.
Source: `src/consensus/merkle.cpp` `MerkleComputation`
Kind: L -/
theorem node_last_of_not_dvd {v w : List Uint256} {k L : Nat} {a : Uint256}
    (hk : 2 ^ k ∣ v.length) (hkL : k < L) (hndL : ¬ 2 ^ L ∣ v.length + 2 ^ k)
    (hbit : (v.length + 2 ^ k).testBit L = true)
    (hnode : v.length.testBit L = true → node hash L (v.length / 2 ^ L - 1) v = some a) :
    node hash L ((v.length + 2 ^ k) / 2 ^ L - 1) (v ++ w) = some a := by
  have hquot := add_div_two_pow_of_not_dvd hk hkL hndL
  have hbit' : v.length.testBit L = true := by
    rwa [Nat.testBit_eq_decide_div_mod_eq, ← hquot, ← Nat.testBit_eq_decide_div_mod_eq]
  have hpos : 0 < v.length / 2 ^ L := by
    rw [Nat.testBit_eq_decide_div_mod_eq, decide_eq_true_iff] at hbit'
    exact Nat.pos_of_ne_zero fun h0 => by simp [h0] at hbit'
  rw [hquot, node_append_of_le hash _ (by
    rw [Nat.sub_add_cancel hpos]; exact Nat.div_mul_le_self _ _), hnode hbit']

end append

/-! ## The carry loop -/

section carry

variable (hash : Uint256 → Uint256 → Uint256)

/-- What a carry from level `k` on the count `m` gives.
Source: `src/consensus/merkle.cpp` `MerkleComputation` (the carry loop)
Kind: D -/
structure CarryPost (detect : Bool) (m : Nat) (v : List Uint256) (k : Nat) (s : MerkleState)
    (r : MerkleCarry) : Prop where
  le_level : k ≤ r.level
  dvd : 2 ^ r.level ∣ m
  not_dvd : ¬ 2 ^ (r.level + 1) ∣ m
  h_eq : node hash r.level (m / 2 ^ r.level - 1) v = some r.h
  count_eq : r.state.count = s.count
  inner_eq : r.state.inner = s.inner
  mutated_iff : r.state.mutated = true ↔ s.mutated = true ∨ detect = true ∧
    ∃ L, k ≤ L ∧ 2 ^ (L + 1) ∣ m ∧ node hash L (m / 2 ^ L - 2) v = node hash L (m / 2 ^ L - 1) v

/-- **The carry loop.** From level `k` with `2 ^ k ∣ m`, the last node of level `k` carried, and
the left node of each pair ending at `m` in `inner`, the carry stops at the lowest set bit of
`m` with its last node.
Source: `src/consensus/merkle.cpp` `MerkleComputation` (the carry loop)
Kind: L -/
theorem merkleCarry_spec (collect detect : Bool) {m : Nat} {v : List Uint256} (hm0 : 0 < m)
    (hm : m ≤ 2 ^ 31) :
    ∀ (fuel k : Nat) (h : Uint256) (matchh : Bool) (s : MerkleState), 31 < fuel + k →
      2 ^ k ∣ m → node hash k (m / 2 ^ k - 1) v = some h →
      (∀ L, k ≤ L → 2 ^ (L + 1) ∣ m → node hash L (m / 2 ^ L - 2) v = some (s.inner L)) →
      CarryPost hash detect m v k s (merkleCarry hash collect detect m fuel k h matchh s) := by
  intro fuel
  induction fuel with
  | zero =>
    -- no level above `31` divides a count of at most `2 ^ 31`
    intro k h matchh s hfuel hk
    have h₁ : 2 ^ k ≤ m := Nat.le_of_dvd hm0 hk
    have h₂ : 2 ^ 31 < 2 ^ k := Nat.pow_lt_pow_right (by norm_num) (by omega)
    omega
  | succ fuel ih =>
    intro k h matchh s hfuel hk hh hinner
    rw [merkleCarry]
    by_cases hbit : m.testBit k = true
    · -- bit `k` is set: the carry stops here
      rw [if_pos ((and_one_shiftLeft_ne_zero_iff m k).mpr hbit)]
      have hnot : ¬ 2 ^ (k + 1) ∣ m := fun hd => by
        simp [(testBit_eq_false_iff_dvd hk).mpr hd] at hbit
      refine ⟨le_rfl, hk, hnot, hh, rfl, rfl, ⟨.inl, fun hor => hor.resolve_right ?_⟩⟩
      rintro ⟨-, L, hL, hd, -⟩
      exact hnot ((pow_dvd_pow 2 (by omega)).trans hd)
    · -- bit `k` is clear: `inner[k]` and the carried hash are the last pair of level `k`
      rw [if_neg (by rwa [and_one_shiftLeft_ne_zero_iff])]
      dsimp only
      have hk' : 2 ^ (k + 1) ∣ m := (testBit_eq_false_iff_dvd hk).mp (by simpa using hbit)
      have hleft := hinner k le_rfl hk'
      have hh' : node hash (k + 1) (m / 2 ^ (k + 1) - 1) v = some (hash (s.inner k) h) := by
        obtain ⟨c, hc⟩ := hk'
        have hc0 : 0 < c := Nat.pos_of_ne_zero (by rintro rfl; simp at hc; omega)
        have hdiv : m / 2 ^ k = 2 * c := by rw [hc, two_pow_succ_mul_div]
        have hdiv' : m / 2 ^ (k + 1) = c := by
          rw [hc, Nat.mul_div_cancel_left _ (Nat.two_pow_pos _)]
        rw [hdiv] at hleft hh
        rw [hdiv']
        apply node_succ_of_some hash
        · rwa [show 2 * (c - 1) = 2 * c - 2 by omega]
        · rwa [show 2 * (c - 1) + 1 = 2 * c - 1 by omega]
      obtain ⟨hle, hdvd, hndvd, hhr, hcount, hinr, hmut⟩ :=
        ih (k + 1) _ (branchStep collect k h matchh s).1
          { s with mutated := s.mutated || (detect && s.inner k == h),
                   branch := (branchStep collect k h matchh s).2 }
          (by omega) hk' hh' (fun L hL => hinner L (by omega))
      refine ⟨by omega, hdvd, hndvd, hhr, hcount, hinr, ?_⟩
      -- the pair at level `k` is the one this step compares
      have hpair : (2 ^ (k + 1) ∣ m ∧
          node hash k (m / 2 ^ k - 2) v = node hash k (m / 2 ^ k - 1) v) ↔ s.inner k = h := by
        rw [hleft, hh, Option.some.injEq, and_iff_right hk']
      rw [hmut, exists_le_iff (k := k), hpair, and_or_left, ← or_assoc]
      simp only [Bool.or_eq_true, Bool.and_eq_true, beq_iff_eq]

/-- `lowestSetLevel` from a level `k` with `2 ^ k ∣ m` stops at the lowest set bit of `m`.
Source: `src/consensus/merkle.cpp` `MerkleComputation` (the search for the lowest set bit)
Kind: L -/
theorem lowestSetLevel_spec {m : Nat} (hm0 : 0 < m) (hm : m ≤ 2 ^ 31) :
    ∀ (fuel k : Nat), 31 < fuel + k → 2 ^ k ∣ m →
      2 ^ lowestSetLevel m fuel k ∣ m ∧ ¬ 2 ^ (lowestSetLevel m fuel k + 1) ∣ m := by
  intro fuel
  induction fuel with
  | zero =>
    intro k hfuel hk
    have h₁ : 2 ^ k ≤ m := Nat.le_of_dvd hm0 hk
    have h₂ : 2 ^ 31 < 2 ^ k := Nat.pow_lt_pow_right (by norm_num) (by omega)
    omega
  | succ fuel ih =>
    intro k hfuel hk
    rw [lowestSetLevel]
    by_cases hbit : m.testBit k = true
    · rw [if_pos ((and_one_shiftLeft_ne_zero_iff m k).mpr hbit)]
      exact ⟨hk, fun hd => by simp [(testBit_eq_false_iff_dvd hk).mpr hd] at hbit⟩
    · rw [if_neg (by rwa [and_one_shiftLeft_ne_zero_iff])]
      exact ih (k + 1) (by omega) ((testBit_eq_false_iff_dvd hk).mp (by simpa using hbit))

end carry

/-! ## The loop over the leaves -/

section leaves

variable (hash : Uint256 → Uint256 → Uint256)

/-- The invariant of the loop over the leaves, after the leaves `l`: `count` is their number,
`inner[L]` is the last node of level `L` for each set bit `L` of `count`, and `mutated` says
whether two equal complete nodes stand side by side.
Source: `src/consensus/merkle.cpp` `MerkleComputation` (the loop over the leaves)
Kind: D -/
structure LeafInv (l : List Uint256) (s : MerkleState) : Prop where
  count_eq : s.count = l.length
  inner_eq : ∀ L, s.count.testBit L = true →
    node hash L (s.count / 2 ^ L - 1) l = some (s.inner L)
  mutated_iff : s.mutated = true ↔ Mutated hash l

/-- No leaves, no two equal siblings.
Source: `src/consensus/merkle.cpp` `MerkleComputation`
Kind: L -/
theorem not_mutated_nil : ¬ Mutated hash [] := by
  rintro ⟨L, i, a, hle, -⟩
  simp at hle

/-- The invariant holds before the first leaf.
Source: `src/consensus/merkle.cpp` `MerkleComputation`
Kind: L -/
theorem leafInv_init : LeafInv hash [] MerkleState.init where
  count_eq := rfl
  inner_eq L hL := by simp [MerkleState.init] at hL
  mutated_iff := by simp [MerkleState.init, not_mutated_nil]

/-- **One leaf.** The leaf is carried up to the lowest set bit `t` of the new count and stored
there; the levels above `t` keep their last nodes, and the pairs compared on the way are the
pairs that end at the new leaf.
Source: `src/consensus/merkle.cpp` `MerkleComputation` (the loop over the leaves)
Kind: L -/
theorem leafInv_merkleLeaf (collect : Bool) (branchpos : Nat) {l : List Uint256}
    {s : MerkleState} (x : Uint256) (hs : LeafInv hash l s) (hl : l.length < 2 ^ 31) :
    LeafInv hash (l ++ [x]) (merkleLeaf hash collect branchpos s x) := by
  have hvlen : (l ++ [x]).length = l.length + 1 := by simp
  have hh : node hash 0 ((l.length + 1) / 2 ^ 0 - 1) (l ++ [x]) = some x := by simp
  -- the left node of each pair ending at the new leaf is the last node of `l` on its level
  have hinner : ∀ L, 0 ≤ L → 2 ^ (L + 1) ∣ l.length + 1 →
      node hash L ((l.length + 1) / 2 ^ L - 2) (l ++ [x]) = some (s.inner L) := by
    intro L _ hd
    have := node_pair_left hash (v := l) (w := [x]) (k := 0) (Nat.zero_le L)
      (by rwa [pow_zero]) (by rw [← hs.count_eq]; exact hs.inner_eq L)
    rwa [pow_zero] at this
  obtain ⟨-, hdvd, hndvd, hhr, hcount, hinr, hmut⟩ :=
    merkleCarry_spec hash collect true (m := s.count + 1) (v := l ++ [x]) (by omega)
      (by rw [hs.count_eq]; omega) 32 0 x (s.count == branchpos) { s with count := s.count + 1 }
      (by norm_num) (one_dvd _) (by rw [hs.count_eq]; exact hh)
      (by rw [hs.count_eq]; exact hinner)
  unfold merkleLeaf
  set r := merkleCarry hash collect true (s.count + 1) 32 0 x (s.count == branchpos)
    { s with count := s.count + 1 }
  rw [hs.count_eq] at hdvd hndvd hhr hmut
  refine ⟨by simp [hcount, hs.count_eq], fun L hL => ?_, ?_⟩
  · simp only [hcount, hs.count_eq] at hL ⊢
    rcases eq_or_ne L r.level with rfl | hne
    · rw [Function.update_self]
      exact hhr
    · -- a level above the carry's: its bit and its last node are those of `l`
      rw [Function.update_of_ne hne, hinr]
      have hgt : r.level < L := by
        rcases Nat.lt_or_gt_of_ne hne with hlt | hgt
        · simp [testBit_eq_false_of_dvd hdvd hlt] at hL
        · exact hgt
      have hndL : ¬ 2 ^ L ∣ l.length + 1 := fun hd => hndvd ((pow_dvd_pow 2 hgt).trans hd)
      have := node_last_of_not_dvd hash (v := l) (w := [x]) (k := 0) (L := L) (one_dvd _)
        (by omega) (by rwa [pow_zero]) (by rwa [pow_zero])
        (by rw [← hs.count_eq]; exact hs.inner_eq L)
      rwa [pow_zero] at this
  · simp only [hmut, true_and, hs.mutated_iff, mutated_append_singleton_iff, Nat.zero_le]

/-- **The loop over the leaves** keeps `LeafInv`.
Source: `src/consensus/merkle.cpp` `MerkleComputation` (the loop over the leaves)
Kind: L -/
theorem leafInv_foldl (collect : Bool) (branchpos : Nat) :
    ∀ (l₀ l : List Uint256) (s : MerkleState), LeafInv hash l₀ s →
      l₀.length + l.length ≤ 2 ^ 31 →
      LeafInv hash (l₀ ++ l) (l.foldl (merkleLeaf hash collect branchpos) s) := by
  intro l₀ l
  induction l generalizing l₀ with
  | nil =>
    intro s hs _
    simpa using hs
  | cons x l ih =>
    intro s hs hlen
    rw [List.foldl_cons, ← List.singleton_append, ← List.append_assoc]
    exact ih _ _ (leafInv_merkleLeaf hash collect branchpos x hs (by simp at hlen; omega))
      (by simp at hlen ⊢; omega)

end leaves

/-! ## The final sweep -/

section sweep

variable (hash : Uint256 → Uint256 → Uint256)

/-- The invariant of the final sweep for the leaves `l`, at `level`: the sweep stands at the
leaves `v`, `l` with copies of last blocks appended, which have the root of `l`; `level` is the
lowest set bit of their number and `h` their last node there; `inner` holds the last node of each
higher level whose bit is set.
Source: `src/consensus/merkle.cpp` `MerkleComputation` (the final sweep)
Kind: D -/
structure SweepInv (l v : List Uint256) (level : Nat) (h : Uint256) (s : MerkleState) : Prop where
  count_eq : s.count = v.length
  dvd : 2 ^ level ∣ v.length
  not_dvd : ¬ 2 ^ (level + 1) ∣ v.length
  h_eq : node hash level (v.length / 2 ^ level - 1) v = some h
  inner_eq : ∀ L, level < L → v.length.testBit L = true →
    node hash L (v.length / 2 ^ L - 1) v = some (s.inner L)
  root_eq : root hash Uint256.zero v = root hash Uint256.zero l
  le : v.length ≤ 2 ^ 31

/-- One more round of the sweep fits the `2 ^ 31` leaves: a count that is not a power of two is
below `2 ^ 31`, and grows to the next multiple of `2 ^ level`.
Source: `src/consensus/merkle.cpp` `MerkleComputation` (the final sweep)
Kind: L -/
theorem sweep_count_le {n level : Nat} (hn : n ≤ 2 ^ 31) (hdvd : 2 ^ level ∣ n)
    (hndvd : ¬ 2 ^ (level + 1) ∣ n) (hne : n ≠ 2 ^ level) : n + 2 ^ level ≤ 2 ^ 31 := by
  have hn0 : 0 < n := Nat.pos_of_ne_zero (by rintro rfl; exact hndvd (dvd_zero _))
  have hlevel : level ≤ 31 := by
    have : 2 ^ level ≤ 2 ^ 31 := (Nat.le_of_dvd hn0 hdvd).trans hn
    exact (Nat.pow_le_pow_iff_right (by norm_num)).mp this
  have hlt : n < 2 ^ 31 := by
    refine lt_of_le_of_ne hn fun heq => ?_
    -- `2 ^ 31` has its lowest set bit at `31`
    have h31 : level = 31 := by
      by_contra hne31
      exact hndvd (heq ▸ pow_dvd_pow 2 (by omega))
    exact hne (heq.trans (by rw [h31]))
  exact add_le_of_dvd_of_lt hlt hdvd (pow_dvd_pow 2 hlevel)

/-- **One round of the sweep**: the odd last node of `level`, paired with itself and carried up,
leaves the state of the leaves with their last block of `2 ^ level` copied once more, one level
up at least, with `mutated` as it was.
Source: `src/consensus/merkle.cpp` `MerkleComputation` (the final sweep)
Kind: L -/
theorem sweep_round (collect : Bool) {l v : List Uint256} {level : Nat} {h : Uint256}
    {matchh : Bool} {s : MerkleState} (hs : SweepInv hash l v level h s)
    (hpow : v.length ≠ 2 ^ level) (r : MerkleCarry)
    (hr : r = merkleCarry hash collect false (s.count + (1 <<< level)) 32 (level + 1) (hash h h)
      matchh { s with count := s.count + (1 <<< level),
                      branch := if collect && matchh then s.branch ++ [h] else s.branch }) :
    level < r.level ∧ SweepInv hash l (v ++ v.drop (v.length - 2 ^ level)) r.level r.h r.state ∧
      r.state.mutated = s.mutated := by
  have hv0 : 0 < v.length := Nat.pos_of_ne_zero (by
    intro h0; exact hs.not_dvd (h0 ▸ dvd_zero _))
  rw [hs.count_eq, Nat.one_shiftLeft] at hr
  -- `v` is an odd number `2 q + 1 ≥ 3` of blocks of `2 ^ level`
  obtain ⟨e, he⟩ := hs.dvd
  have hodd : e % 2 = 1 := by
    by_contra heven
    exact hs.not_dvd ⟨e / 2, by rw [he, pow_succ, mul_assoc, ← (by omega : e = 2 * (e / 2))]⟩
  have hq : v.length = 2 ^ level * (2 * (e / 2) + 1) := by rw [he]; congr 1; omega
  have hq0 : 0 < e / 2 := by
    by_contra hq0
    exact hpow (by rw [he, show e = 1 by omega, mul_one])
  set q := e / 2
  set v' := v ++ v.drop (v.length - 2 ^ level) with hv'
  have hv'len : v'.length = v.length + 2 ^ level := by
    rw [hv', List.length_append, List.length_drop,
      Nat.sub_sub_self (Nat.le_of_dvd hv0 ⟨e, he⟩)]
  have hbound := sweep_count_le hs.le ⟨e, he⟩ hs.not_dvd hpow
  -- the odd last node paired with itself is the last node of level `level + 1` of `v'`
  have hdvd' : 2 ^ (level + 1) ∣ v.length + 2 ^ level :=
    ⟨q + 1, by rw [hq, pow_succ]; ring⟩
  have hh' : node hash (level + 1) ((v.length + 2 ^ level) / 2 ^ (level + 1) - 1) v' =
      some (hash h h) := by
    have hdiv : (v.length + 2 ^ level) / 2 ^ (level + 1) = q + 1 := by
      rw [show v.length + 2 ^ level = 2 ^ (level + 1) * (q + 1) by rw [hq, pow_succ]; ring,
        Nat.mul_div_cancel_left _ (Nat.two_pow_pos _)]
    have hlast : node hash level (2 * q) v = some h := by
      have := hs.h_eq
      rwa [hq, Nat.mul_div_cancel_left _ (Nat.two_pow_pos _), Nat.add_sub_cancel] at this
    obtain ⟨hleft, hright⟩ := node_append_lastBlock hash hq
    rw [hdiv, Nat.add_sub_cancel]
    exact node_succ_of_some hash (hleft.trans hlast) (hright.trans hlast)
  -- a pair ending at the new count has the last node of `v` of its level on the left
  have hinner' : ∀ L, level + 1 ≤ L → 2 ^ (L + 1) ∣ v.length + 2 ^ level →
      node hash L ((v.length + 2 ^ level) / 2 ^ L - 2) v' = some (s.inner L) :=
    fun L hL hd => node_pair_left hash (by omega) hd (hs.inner_eq L (by omega))
  obtain ⟨hle, hdvd, hndvd, hhr, hcount, hinr, hmut⟩ := hr ▸
    merkleCarry_spec hash collect false (v := v') (by omega) hbound 32 (level + 1) (hash h h) matchh
      { s with count := v.length + 2 ^ level,
               branch := if collect && matchh then s.branch ++ [h] else s.branch }
      (by omega) hdvd' hh' hinner'
  refine ⟨by omega, ⟨by rw [hcount, hv'len], by rwa [hv'len], by rwa [hv'len],
    by rwa [hv'len], fun L hL hbit => ?_, ?_, by omega⟩, by simpa using hmut⟩
  · -- the slots above the new level keep the nodes of `v`, which `v'` extends
    rw [hv'len] at hbit ⊢
    rw [hinr]
    exact node_last_of_not_dvd hash ⟨e, he⟩ (by omega)
      (fun hd => hndvd ((pow_dvd_pow 2 hL).trans hd)) hbit (hs.inner_eq L (by omega))
  · rw [hv', root_append_lastBlock hash Uint256.zero hq hq0, hs.root_eq]

/-- **The final sweep** returns the root of the leaves and leaves `mutated` as it is.
Source: `src/consensus/merkle.cpp` `MerkleComputation` (the final sweep)
Kind: L -/
theorem merkleSweep_spec (collect : Bool) {l : List Uint256} :
    ∀ (fuel level : Nat) (v : List Uint256) (h : Uint256) (matchh : Bool) (s : MerkleState),
      SweepInv hash l v level h s → 31 < fuel + level →
      (merkleSweep hash collect fuel level h matchh s).1 = root hash Uint256.zero l ∧
        (merkleSweep hash collect fuel level h matchh s).2.mutated = s.mutated := by
  intro fuel
  induction fuel with
  | zero =>
    -- no level above `31` divides a count of at most `2 ^ 31`
    intro level v h matchh s hs hfuel
    have hv0 : 0 < v.length := Nat.pos_of_ne_zero (by
      intro h0; exact hs.not_dvd (h0 ▸ dvd_zero _))
    have h₁ : 2 ^ level ≤ 2 ^ 31 := (Nat.le_of_dvd hv0 hs.dvd).trans hs.le
    have h₂ : 2 ^ 31 < 2 ^ level := Nat.pow_lt_pow_right (by norm_num) (by omega)
    omega
  | succ fuel ih =>
    intro level v h matchh s hs hfuel
    have hv0 : 0 < v.length := Nat.pos_of_ne_zero (by
      intro h0; exact hs.not_dvd (h0 ▸ dvd_zero _))
    rw [merkleSweep]
    by_cases hpow : s.count = 1 <<< level
    · -- one node left: it is the root
      rw [if_pos hpow]
      rw [hs.count_eq, Nat.one_shiftLeft] at hpow
      have hh := hs.h_eq
      rw [hpow, Nat.div_self (Nat.two_pow_pos level),
        node_eq_root hash Uint256.zero hv0 hpow.le (by omega)] at hh
      exact ⟨(Option.some.inj hh).symm.trans hs.root_eq, rfl⟩
    · -- a round of the sweep, then the rest from one level up
      rw [if_neg hpow]
      rw [hs.count_eq, Nat.one_shiftLeft] at hpow
      obtain ⟨hlt, hs', hmut⟩ := sweep_round hash collect hs hpow _ rfl
      obtain ⟨hroot, hmutated⟩ := ih _ _ _ _ _ hs' (by omega)
      exact ⟨hroot, hmutated.trans hmut⟩

end sweep

/-! ## The root and the mutation flag -/

section root

variable (hash : Uint256 → Uint256 → Uint256)

/-- `MerkleComputation`'s root and mutation flag, whatever branch it collects.
Source: `src/consensus/merkle.cpp` `MerkleComputation`
Kind: L -/
theorem merkleComputation_eq (collect : Bool) (branchpos : Nat) {leaves : List Uint256}
    (hlen : leaves.length ≤ 2 ^ 31) :
    (merkleComputation hash leaves branchpos collect).1 = root hash Uint256.zero leaves ∧
      ((merkleComputation hash leaves branchpos collect).2.1 = true ↔ Mutated hash leaves) := by
  unfold merkleComputation
  split_ifs with hnil
  · rw [List.length_eq_zero_iff.mp hnil]
    exact ⟨by simp [root], by simp [not_mutated_nil]⟩
  · have hs := leafInv_foldl hash collect branchpos [] leaves _ (leafInv_init hash)
      (by simpa using hlen)
    rw [List.nil_append] at hs
    set s := leaves.foldl (merkleLeaf hash collect branchpos) MerkleState.init
    have hn0 : 0 < s.count := by rw [hs.count_eq]; omega
    have hn : s.count ≤ 2 ^ 31 := by rw [hs.count_eq]; exact hlen
    obtain ⟨hdvd, hndvd⟩ := lowestSetLevel_spec hn0 hn 32 0 (by norm_num) (one_dvd _)
    set level := lowestSetLevel s.count 32 0
    have hbit : s.count.testBit level = true := by
      by_contra hb
      exact hndvd ((testBit_eq_false_iff_dvd hdvd).mp (by simpa using hb))
    have hsweep : SweepInv hash leaves leaves level (s.inner level) s := by
      rw [hs.count_eq] at hdvd hndvd
      refine ⟨hs.count_eq, hdvd, hndvd, ?_, fun L _ hL => ?_, rfl, hlen⟩
      · have := hs.inner_eq level hbit
        rwa [hs.count_eq] at this
      · have := hs.inner_eq L (by rwa [hs.count_eq])
        rwa [hs.count_eq] at this
    obtain ⟨hroot, hmut⟩ := merkleSweep_spec hash collect 32 level leaves _
      (decide (s.matchlevel = level)) s hsweep (by omega)
    dsimp only
    exact ⟨hroot, by rw [hmut, hs.mutated_iff]⟩

/-- **`ComputeMerkleRoot` is the level-by-level Merkle tree.** For at most `2 ^ 31` leaves the
root is `MerkleTree.root` over `hash`, and the mutation flag is set exactly when two equal
complete nodes stand side by side on some level.
Source: `src/consensus/merkle.cpp` `ComputeMerkleRoot`
Kind: P -/
theorem computeMerkleRoot_eq {leaves : List Uint256} (hlen : leaves.length ≤ 2 ^ 31) :
    (computeMerkleRoot hash leaves).1 = root hash Uint256.zero leaves ∧
      ((computeMerkleRoot hash leaves).2 = true ↔ Mutated hash leaves) :=
  merkleComputation_eq hash false (2 ^ 32 - 1) hlen

/-- Three leaves, the first and last equal, under the hash that keeps its left argument.
Source: `src/consensus/merkle.cpp` `ComputeMerkleRoot`
Kind: W -/
theorem computeMerkleRoot_eq_three :
    (computeMerkleRoot (fun a _ => a) [Uint256.zero, Uint256.ofNat 1, Uint256.zero]).1 =
        root (fun a _ => a) Uint256.zero [Uint256.zero, Uint256.ofNat 1, Uint256.zero] ∧
      ((computeMerkleRoot (fun a _ => a) [Uint256.zero, Uint256.ofNat 1, Uint256.zero]).2 = true ↔
        Mutated (fun a _ => a) [Uint256.zero, Uint256.ofNat 1, Uint256.zero]) :=
  computeMerkleRoot_eq _ (by decide)

/-- The Merkle check passes exactly when the root is the header's and the tree is not mutated.
Source: `src/validation.cpp` `CheckBlock` (the Merkle check)
Kind: L -/
theorem checkBlockMerkleRoot_eq_ok_iff (getHash : CTransaction → Uint256) (hashMerkleRoot : Uint256)
    (vtx : List CTransaction) :
    checkBlockMerkleRoot hash getHash hashMerkleRoot vtx = .ok () ↔
      hashMerkleRoot = (blockMerkleRoot hash getHash vtx).1 ∧
        (blockMerkleRoot hash getHash vtx).2 = false := by
  unfold checkBlockMerkleRoot
  dsimp only
  split_ifs with hroot hmut <;> simp_all

/-- The transaction hashes of a block with its last `2 ^ k` transactions repeated.
Source: none: infrastructure
Kind: L -/
theorem map_append_lastBlock (getHash : CTransaction → Uint256) (k : Nat) (vtx : List CTransaction) :
    (vtx ++ vtx.drop (vtx.length - 2 ^ k)).map getHash =
      vtx.map getHash ++ (vtx.map getHash).drop ((vtx.map getHash).length - 2 ^ k) := by
  rw [List.map_append, List.map_drop, List.length_map]

/-- **The duplicated tail of CVE-2012-2459 is rejected.** When the transactions of a block are an
odd number `2 q + 1 ≥ 3` of blocks of `2 ^ k`, repeating the last `2 ^ k` of them keeps the
Merkle root the header commits to, and `CheckBlock` rejects the longer list as
`bad-txns-duplicate`.
Source: `src/validation.cpp` `CheckBlock`, `src/consensus/merkle.cpp` `BlockMerkleRoot`
Kind: P -/
theorem checkBlockMerkleRoot_rejects_duplicated_tail (getHash : CTransaction → Uint256)
    {k q : Nat} {vtx : List CTransaction} (hv : vtx.length = 2 ^ k * (2 * q + 1)) (hq : 0 < q)
    (hlen : vtx.length + 2 ^ k ≤ 2 ^ 31) :
    (blockMerkleRoot hash getHash (vtx ++ vtx.drop (vtx.length - 2 ^ k))).1 =
        (blockMerkleRoot hash getHash vtx).1 ∧
      checkBlockMerkleRoot hash getHash (blockMerkleRoot hash getHash vtx).1
        (vtx ++ vtx.drop (vtx.length - 2 ^ k)) = .error "bad-txns-duplicate" := by
  have hv' : (vtx.map getHash).length = 2 ^ k * (2 * q + 1) := by rwa [List.length_map]
  have hk : 2 ^ k ≤ vtx.length := by
    rw [hv]
    exact Nat.le_mul_of_pos_right _ (by omega)
  have hlen₁ : (vtx.map getHash).length ≤ 2 ^ 31 := by
    rw [List.length_map]
    exact le_trans (Nat.le_add_right _ _) hlen
  have hlen₂ : (vtx.map getHash ++ (vtx.map getHash).drop
      ((vtx.map getHash).length - 2 ^ k)).length ≤ 2 ^ 31 := by
    rw [← map_append_lastBlock, List.length_map, List.length_append, List.length_drop,
      Nat.sub_sub_self hk]
    exact hlen
  obtain ⟨hroot, -⟩ := merkleComputation_eq hash false (2 ^ 32 - 1) hlen₁
  obtain ⟨hroot', hmut'⟩ := merkleComputation_eq hash false (2 ^ 32 - 1) hlen₂
  -- the longer list has the root of the shorter and is mutated
  have hsame : (blockMerkleRoot hash getHash (vtx ++ vtx.drop (vtx.length - 2 ^ k))).1 =
      (blockMerkleRoot hash getHash vtx).1 := by
    unfold blockMerkleRoot computeMerkleRoot
    rw [map_append_lastBlock, hroot', hroot, root_append_lastBlock hash Uint256.zero hv' hq]
  have hflag : (blockMerkleRoot hash getHash (vtx ++ vtx.drop (vtx.length - 2 ^ k))).2 = true := by
    unfold blockMerkleRoot computeMerkleRoot
    rw [map_append_lastBlock]
    exact hmut'.mpr (mutated_append_lastBlock hash hv')
  refine ⟨hsame, ?_⟩
  unfold checkBlockMerkleRoot
  rw [if_neg (by rw [hsame]; exact not_not.mpr rfl), if_pos hflag]

/-- A transaction told apart by its lock time.
Source: none: test data
Kind: D -/
def lockTimeTx (i : Nat) : CTransaction := ⟨[], [], 1, i.toUInt32, 0⟩

/-- Six transactions with their last two repeated.
Source: `src/validation.cpp` `CheckBlock`
Kind: W -/
theorem checkBlockMerkleRoot_rejects_duplicated_tail_six :
    (blockMerkleRoot (fun a b => Uint256.ofNat (a.val.val + 2 * b.val.val + 1))
        (fun tx => Uint256.ofNat tx.nLockTime.toNat)
        ((List.range 6).map lockTimeTx ++
          ((List.range 6).map lockTimeTx).drop (((List.range 6).map lockTimeTx).length - 2 ^ 1))).1 =
        (blockMerkleRoot (fun a b => Uint256.ofNat (a.val.val + 2 * b.val.val + 1))
          (fun tx => Uint256.ofNat tx.nLockTime.toNat) ((List.range 6).map lockTimeTx)).1 ∧
      checkBlockMerkleRoot (fun a b => Uint256.ofNat (a.val.val + 2 * b.val.val + 1))
          (fun tx => Uint256.ofNat tx.nLockTime.toNat)
          (blockMerkleRoot (fun a b => Uint256.ofNat (a.val.val + 2 * b.val.val + 1))
            (fun tx => Uint256.ofNat tx.nLockTime.toNat) ((List.range 6).map lockTimeTx)).1
          ((List.range 6).map lockTimeTx ++
            ((List.range 6).map lockTimeTx).drop (((List.range 6).map lockTimeTx).length - 2 ^ 1)) =
        .error "bad-txns-duplicate" :=
  checkBlockMerkleRoot_rejects_duplicated_tail _ _ (k := 1) (q := 1) (by simp) (by decide)
    (by simp)

/-- **One header root, one list of transaction hashes.** Two lists of transactions of one depth
`d` — more than `2 ^ (d - 1)` and at most `2 ^ d` of them — that both pass the Merkle check of
`CheckBlock` against one root have the same transaction hashes, unless `hash` takes two different
pairs that the two Merkle computations hash to one value.
Source: `src/validation.cpp` `CheckBlock`, `src/consensus/merkle.cpp` `BlockMerkleRoot`
Kind: P -/
theorem checkBlockMerkleRoot_unique (getHash : CTransaction → Uint256) {hashMerkleRoot : Uint256}
    {d : Nat} {vtx₁ vtx₂ : List CTransaction} (hd : d ≤ 31) (h₁ : vtx₁.length ≤ 2 ^ d)
    (h₁' : 2 ^ d < 2 * vtx₁.length) (h₂ : vtx₂.length ≤ 2 ^ d) (h₂' : 2 ^ d < 2 * vtx₂.length)
    (hc₁ : checkBlockMerkleRoot hash getHash hashMerkleRoot vtx₁ = .ok ())
    (hc₂ : checkBlockMerkleRoot hash getHash hashMerkleRoot vtx₂ = .ok ()) :
    vtx₁.map getHash = vtx₂.map getHash ∨
      Collision hash (vtx₁.map getHash) (vtx₂.map getHash) := by
  have hpow : 2 ^ d ≤ 2 ^ 31 := pow_le_pow_right₀ (by norm_num) hd
  obtain ⟨hr₁, hm₁⟩ := (checkBlockMerkleRoot_eq_ok_iff hash getHash _ _).mp hc₁
  obtain ⟨hr₂, hm₂⟩ := (checkBlockMerkleRoot_eq_ok_iff hash getHash _ _).mp hc₂
  have hspec : ∀ vtx : List CTransaction, vtx.length ≤ 2 ^ d →
      (blockMerkleRoot hash getHash vtx).1 = root hash Uint256.zero (vtx.map getHash) ∧
        ((blockMerkleRoot hash getHash vtx).2 = true ↔ Mutated hash (vtx.map getHash)) :=
    fun vtx hle => merkleComputation_eq hash false (2 ^ 32 - 1)
      (by rw [List.length_map]; omega)
  obtain ⟨hroot₁, hmut₁⟩ := hspec vtx₁ h₁
  obtain ⟨hroot₂, hmut₂⟩ := hspec vtx₂ h₂
  -- one root, and neither tree mutated
  have hroots : root hash Uint256.zero (vtx₁.map getHash) =
      root hash Uint256.zero (vtx₂.map getHash) := by
    rw [← hroot₁, ← hroot₂, ← hr₁, ← hr₂]
  have hnm₁ : ¬ Mutated hash (vtx₁.map getHash) := fun h => by simp [hmut₁.mpr h] at hm₁
  have hnm₂ : ¬ Mutated hash (vtx₂.map getHash) := fun h => by simp [hmut₂.mpr h] at hm₂
  rcases le_total vtx₁.length vtx₂.length with h12 | h21
  · rcases @eq_or_mutated_of_root_eq _ hash Uint256.zero d (vtx₁.map getHash)
      (vtx₂.map getHash) (by simp; omega) (by simpa using h12) (by simpa using h₂)
      (by simpa using h₁') hroots with heq | hm | hcol
    · exact .inl heq
    · exact absurd hm hnm₂
    · exact .inr hcol
  · rcases @eq_or_mutated_of_root_eq _ hash Uint256.zero d (vtx₂.map getHash)
      (vtx₁.map getHash) (by simp; omega) (by simpa using h21) (by simpa using h₁)
      (by simpa using h₂') hroots.symm with heq | hm | hcol
    · exact .inl heq.symm
    · exact absurd hm hnm₁
    · exact .inr (collision_comm hash hcol)

/-- Two lists of two transactions with the same hashes under a hash that reads the lock time.
Source: `src/validation.cpp` `CheckBlock`
Kind: W -/
theorem checkBlockMerkleRoot_unique_two :
    let hash := fun (a b : Uint256) => Uint256.ofNat (a.val.val + 2 * b.val.val + 1)
    let getHash := fun (tx : CTransaction) => Uint256.ofNat tx.nLockTime.toNat
    let vtx₁ : List CTransaction := [⟨[], [], 1, 3, 0⟩, ⟨[], [], 1, 5, 0⟩]
    let vtx₂ : List CTransaction := [⟨[], [], 2, 3, 0⟩, ⟨[], [], 2, 5, 0⟩]
    vtx₁.map getHash = vtx₂.map getHash ∨ Collision hash (vtx₁.map getHash) (vtx₂.map getHash) :=
  @checkBlockMerkleRoot_unique _ _ (Uint256.ofNat 14) 1 _ _ (by decide) (by decide) (by decide)
    (by decide) (by decide) (by decide) (by decide)

end root

end BwsCoin.Consensus
