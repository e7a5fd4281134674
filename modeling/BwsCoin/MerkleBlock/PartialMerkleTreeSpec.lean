import Mathlib
import BwsCoin.MerkleBlock.PartialMerkleTree
import BwsCoin.Consensus.MerkleSpec
import BwsCoin.Lib.MerkleTree

/-!
# A partial Merkle tree reads back, and proves what it matches

The walks of `src/merkleblock.cpp` against the tree they stand for, the level-by-level Merkle
tree `MerkleTree.node` of the txids, whose root `ComputeMerkleRoot` computes.

* `calcHash_eq` — `CalcHash(height, pos)` is the node at `pos` of level `height`.
* `leavesUnder` — the positions of the leaves under a node; `parentOfMatch_eq` reads the loop of
  `TraverseAndBuild` as "a matched position among them".
* `ExtractsAs` — `TraverseAndExtract` reads given bits and hashes, from wherever they start in the
  vectors and whatever follows them, as a given hash and matches. One lemma per branch of the
  traversal (`extractsAs_stored`, `extractsAs_pair`, `extractsAs_single`) composes it.
* `traverseAndBuild_spec` — what `TraverseAndBuild` appends for a subtree is read back by
  `TraverseAndExtract` as the subtree's node and its matched txids, when no two sibling nodes of
  the tree are equal.
* `traverseAndExtract_sound` — whatever the bits and hashes, a traversal that meets no fault and
  returns the true node of its subtree has collected txids of the block at their own positions,
  in order, unless `hash` takes a pair the traversal combines (`extractPairs`) and a different
  pair the block's tree combines to one value.
* `unpackBits_packBits` — the bits read back from their bytes, padded with clear bits to a whole
  byte.

The main results: **`extractMatches_unserialize_build`**, the tree the constructor builds, sent
and read back, gives the block's Merkle root with the matched txids and their positions; and
**`extractMatches_sound`**, a tree of the block's number of transactions whose `ExtractMatches`
returns the block's root lists txids of the block at their positions, or `hash` has such a
collision.
-/

namespace BwsCoin.MerkleBlock

open MerkleTree Serialize ByteReader Consensus

namespace CPartialMerkleTree

/-! ## Widths and the height of the tree -/

/-- Below `2 ^ 32`, the width of level `height` is the rounded-up quotient.
Source: `src/merkleblock.cpp` `CPartialMerkleTree::CalcTreeWidth`
Kind: L -/
theorem calcTreeWidth_eq {n height : Nat} (hw : n + 2 ^ height ≤ 2 ^ 32) :
    calcTreeWidth n height = (n + 2 ^ height - 1) / 2 ^ height := by
  rw [calcTreeWidth, Nat.one_shiftLeft,
    Nat.mod_eq_of_lt (show n + 2 ^ height - 1 < 2 ^ 32 by omega), Nat.shiftRight_eq_div_pow]

/-- Position `j` of level `height` is in the tree exactly when a leaf lies under it.
Source: `src/merkleblock.cpp` `CPartialMerkleTree::CalcTreeWidth`
Kind: L -/
theorem lt_calcTreeWidth_iff {n height j : Nat} (hw : n + 2 ^ height ≤ 2 ^ 32) :
    j < calcTreeWidth n height ↔ j * 2 ^ height < n := by
  have hpos := Nat.two_pow_pos height
  rw [calcTreeWidth_eq hw, ← Nat.add_one_le_iff, Nat.le_div_iff_mul_le hpos, Nat.succ_mul]
  omega

/-- A bound on the number of transactions that holds at every lower height.
Source: `src/merkleblock.cpp` `CPartialMerkleTree::CalcTreeWidth`
Kind: L -/
theorem width_bound_of_le {n height height' : Nat} (hw : n + 2 ^ height ≤ 2 ^ 32)
    (hle : height' ≤ height) : n + 2 ^ height' ≤ 2 ^ 32 :=
  le_trans (Nat.add_le_add_left (Nat.pow_le_pow_right (by norm_num) hle) n) hw

/-- The loop from `height` stops at the first height whose level has one node, below `2 ^ 31`
transactions before it runs out of turns.
Source: `src/merkleblock.cpp` `CPartialMerkleTree::CPartialMerkleTree`, `CPartialMerkleTree::ExtractMatches` (the height loop)
Kind: L -/
theorem treeHeightLoop_spec {n : Nat} (h1 : 0 < n) (h2 : n ≤ 2 ^ 31) :
    ∀ fuel height, height ≤ 31 → 31 ≤ height + fuel → (height = 0 ∨ 2 ^ (height - 1) < n) →
      treeHeightLoop n fuel height ≤ 31 ∧ n ≤ 2 ^ treeHeightLoop n fuel height ∧
        (treeHeightLoop n fuel height = 0 ∨ 2 ^ (treeHeightLoop n fuel height - 1) < n) := by
  intro fuel
  induction fuel with
  | zero =>
    intro height hle hfuel hlow
    obtain rfl : height = 31 := by omega
    exact ⟨le_refl _, h2, hlow⟩
  | succ fuel ih =>
    intro height hle hfuel hlow
    have hpow : 2 ^ height ≤ 2 ^ 31 := Nat.pow_le_pow_right (by norm_num) hle
    have hwide := @lt_calcTreeWidth_iff n height 1 (by omega)
    rw [one_mul] at hwide
    rw [treeHeightLoop]
    split_ifs with hgt
    · have hgt' : 2 ^ height < n := hwide.mp hgt
      have hlt : height < 31 := by
        by_contra hge
        have : 2 ^ 31 ≤ 2 ^ height := Nat.pow_le_pow_right (by norm_num) (by omega)
        omega
      exact ih (height + 1) (by omega) (by omega) (.inr (by simpa using hgt'))
    · exact ⟨hle, by omega, hlow⟩

/-- `nHeight`: the least height whose `2 ^ nHeight` leaves hold the transactions.
Source: `src/merkleblock.cpp` `CPartialMerkleTree::CPartialMerkleTree`, `CPartialMerkleTree::ExtractMatches` (the height loop)
Kind: L -/
theorem treeHeight_spec {n : Nat} (h1 : 0 < n) (h2 : n ≤ 2 ^ 31) :
    treeHeight n ≤ 31 ∧ n ≤ 2 ^ treeHeight n ∧ 2 ^ treeHeight n < 2 * n := by
  obtain ⟨hle, hn, hlow⟩ := treeHeightLoop_spec h1 h2 32 0 (by omega) (by omega) (.inl rfl)
  rw [treeHeight]
  refine ⟨hle, hn, ?_⟩
  set d := treeHeightLoop n 32 0
  rcases Nat.eq_zero_or_pos d with h0 | hpos
  · rw [h0, pow_zero]
    omega
  · have hlow' : 2 ^ (d - 1) < n := hlow.resolve_left (by omega)
    have hpow : 2 ^ d = 2 * 2 ^ (d - 1) := by
      rw [← pow_succ']
      congr 1
      omega
    omega

/-! ## The leaves under a node -/

/-- The positions of the leaves under the node at `pos` of level `height`: from
`pos * 2 ^ height` to the end of its block or of the `n` leaves.
Source: none: infrastructure
Kind: D -/
def leavesUnder (n height pos : Nat) : List Nat :=
  List.range' (pos * 2 ^ height) (min ((pos + 1) * 2 ^ height) n - pos * 2 ^ height)

/-- The matched positions under a node.
Source: none: infrastructure
Kind: D -/
def matchedUnder (n : Nat) (vMatch : List Bool) (height pos : Nat) : List Nat :=
  (leavesUnder n height pos).filter fun p => vMatch.getD p false

/-- The loop of `TraverseAndBuild` asks whether a leaf under the node is matched.
Source: `src/merkleblock.cpp` `CPartialMerkleTree::TraverseAndBuild` (`fParentOfMatch`)
Kind: L -/
theorem parentOfMatch_eq (n : Nat) (vMatch : List Bool) (height pos : Nat) :
    parentOfMatch n vMatch height pos = (leavesUnder n height pos).any fun p => vMatch.getD p false := by
  rw [parentOfMatch, leavesUnder, Nat.shiftLeft_eq, Nat.shiftLeft_eq]

/-- No matched position under the node exactly when none of its leaves is matched.
Source: `src/merkleblock.cpp` `CPartialMerkleTree::TraverseAndBuild` (`fParentOfMatch`)
Kind: L -/
theorem parentOfMatch_eq_false_iff {n : Nat} {vMatch : List Bool} {height pos : Nat} :
    parentOfMatch n vMatch height pos = false ↔ matchedUnder n vMatch height pos = [] := by
  rw [parentOfMatch_eq, matchedUnder, List.any_eq_false, List.filter_eq_nil_iff]

/-- At the leaf level a position is its own leaf, when the tree has it.
Source: none: specification
Kind: L -/
theorem leavesUnder_zero (n pos : Nat) : leavesUnder n 0 pos = if pos < n then [pos] else [] := by
  rw [leavesUnder]
  split_ifs with h
  · rw [show min ((pos + 1) * 2 ^ 0) n - pos * 2 ^ 0 = 1 by simp; omega]
    simp
  · rw [show min ((pos + 1) * 2 ^ 0) n - pos * 2 ^ 0 = 0 by simp; omega]
    simp

/-- A node past the last leaf has no leaves under it.
Source: none: specification
Kind: L -/
theorem leavesUnder_eq_nil {n height pos : Nat} (h : n ≤ pos * 2 ^ height) :
    leavesUnder n height pos = [] := by
  rw [leavesUnder, List.range'_eq_nil_iff]
  omega

/-- Source: none: specification. Kind: L -/
theorem length_leavesUnder (n height pos : Nat) :
    (leavesUnder n height pos).length = min ((pos + 1) * 2 ^ height) n - pos * 2 ^ height := by
  rw [leavesUnder, List.length_range']

/-- The leaves under a node are those under its two children.
Source: none: specification
Kind: L -/
theorem leavesUnder_succ (n height pos : Nat) :
    leavesUnder n (height + 1) pos =
      leavesUnder n height (pos * 2) ++ leavesUnder n height (pos * 2 + 1) := by
  have hk := Nat.two_pow_pos height
  simp only [leavesUnder]
  -- every bound in terms of the first leaf `A` of the left child and the width `k` of a child
  rw [show pos * 2 ^ (height + 1) = pos * 2 * 2 ^ height by rw [pow_succ]; ring,
    show (pos + 1) * 2 ^ (height + 1) = pos * 2 * 2 ^ height + 2 * 2 ^ height by
      rw [pow_succ]; ring,
    show (pos * 2 + 1) * 2 ^ height = pos * 2 * 2 ^ height + 2 ^ height by ring,
    show (pos * 2 + 1 + 1) * 2 ^ height = pos * 2 * 2 ^ height + 2 * 2 ^ height by ring]
  set k := 2 ^ height
  set A := pos * 2 * k
  by_cases hn : A + k < n
  · rw [show min (A + k) n - A = k by omega, List.range'_append_1,
      show k + (min (A + 2 * k) n - (A + k)) = min (A + 2 * k) n - A by omega]
  · rw [show min (A + 2 * k) n - (A + k) = 0 by omega, List.range'_zero, List.append_nil,
      show min (A + k) n - A = min (A + 2 * k) n - A by omega]

/-- The matched leaves under a node are those under its two children.
Source: none: specification
Kind: L -/
theorem matchedUnder_succ (n : Nat) (vMatch : List Bool) (height pos : Nat) :
    matchedUnder n vMatch (height + 1) pos =
      matchedUnder n vMatch height (pos * 2) ++ matchedUnder n vMatch height (pos * 2 + 1) := by
  rw [matchedUnder, leavesUnder_succ, List.filter_append]
  rfl

/-- The tree's root covers every leaf.
Source: none: specification
Kind: L -/
theorem leavesUnder_top {n d : Nat} (hn : n ≤ 2 ^ d) : leavesUnder n d 0 = List.range n := by
  rw [leavesUnder, zero_add, one_mul, zero_mul, min_eq_right hn, Nat.sub_zero,
    List.range_eq_range']

/-! ## `CalcHash` -/

section calcHash

variable (hash : Uint256 → Uint256 → Uint256)

/-- `CalcHash` computes the node of the level-by-level tree.
Source: `src/merkleblock.cpp` `CPartialMerkleTree::CalcHash`
Kind: L -/
theorem calcHash_eq {vTxid : List Uint256} (hv : vTxid ≠ []) :
    ∀ {height pos x}, vTxid.length + 2 ^ height ≤ 2 ^ 32 → node hash height pos vTxid = some x →
      calcHash hash vTxid.length height pos vTxid = .ok x := by
  have hlen : vTxid.length ≠ 0 := by simpa using hv
  intro height
  induction height with
  | zero =>
    intro pos x _ hx
    rw [calcHash, if_neg hlen, List.getD_eq_getElem?_getD, ← node_zero hash, hx]
    rfl
  | succ height ih =>
    intro pos x hw hx
    have hw' := width_bound_of_le hw (Nat.le_succ height)
    obtain ⟨a, ha, hb⟩ := node_succ_cases hash hx
    rw [mul_comm] at ha hb
    rw [calcHash, if_neg hlen]
    simp only
    rw [ih hw' ha, except_ok_bind]
    rcases hb with ⟨b, hb, rfl⟩ | ⟨hb, rfl⟩
    · have hlt : pos * 2 + 1 < calcTreeWidth vTxid.length height :=
        (lt_calcTreeWidth_iff hw').mpr ((node_isSome_iff hash).mp (by rw [hb]; rfl))
      rw [if_pos hlt, ih hw' hb]
      rfl
    · have hge : ¬ pos * 2 + 1 < calcTreeWidth vTxid.length height := by
        rw [lt_calcTreeWidth_iff hw', ← node_isSome_iff hash, hb]
        simp
      rw [if_neg hge]
      rfl

end calcHash

/-! ## Reading a subtree back -/

section extract

variable (hash : Uint256 → Uint256 → Uint256)

/-- The entry at `i` of a list whose suffix from `i` starts with `b`.
Source: none: infrastructure
Kind: L -/
theorem getD_of_drop_eq_cons {β : Type} {l : List β} {i : Nat} {b : β} {rest : List β} (d : β)
    (h : l.drop i = b :: rest) : ¬ i ≥ l.length ∧ l.getD i d = b ∧ l.drop (i + 1) = rest := by
  have hget : l[i]? = some b := by
    rw [← Nat.add_zero i, ← List.getElem?_drop, h]
    rfl
  refine ⟨not_le.mpr (List.getElem?_eq_some_iff.mp hget).1, ?_, ?_⟩
  · rw [List.getD_eq_getElem?_getD, hget]
    rfl
  · rw [← List.drop_drop, h]
    rfl

/-- `TraverseAndExtract` at `pos` of level `height` reads the bits `bits` and the hashes `hashes`,
wherever they start in a tree of `n` transactions and whatever follows them, as the hash `x`, and
appends the txids `ms` at the positions `M` to its out-parameters.
Source: none: infrastructure
Kind: D -/
def ExtractsAs (n height pos : Nat) (bits : List Bool) (hashes : List Uint256) (x : Uint256)
    (ms : List Uint256) (M : List Nat) : Prop :=
  ∀ (T : CPartialMerkleTree) (s : ExtractState) restB restH, T.nTransactions = n →
    T.vBits.drop s.nBitsUsed = bits ++ restB → T.vHash.drop s.nHashUsed = hashes ++ restH →
    traverseAndExtract hash T height pos s =
      (x, { s with nBitsUsed := s.nBitsUsed + bits.length,
                   nHashUsed := s.nHashUsed + hashes.length,
                   vMatch := s.vMatch ++ ms, vnIndex := s.vnIndex ++ M })

/-- A leaf, or a node whose bit is clear, is read as its stored hash; a leaf whose bit is set is
a match.
Source: `src/merkleblock.cpp` `CPartialMerkleTree::TraverseAndExtract`
Kind: L -/
theorem extractsAs_stored {n height pos : Nat} (b : Bool) (y : Uint256)
    (hb : height = 0 ∨ b = false) :
    ExtractsAs hash n height pos [b] [y] y (if height = 0 ∧ b = true then [y] else [])
      (if height = 0 ∧ b = true then [pos] else []) := by
  intro T s restB restH _ hbits hhash
  obtain ⟨hlt, hget, -⟩ := getD_of_drop_eq_cons false hbits
  obtain ⟨hlt', hget', -⟩ := getD_of_drop_eq_cons Uint256.zero hhash
  rw [traverseAndExtract, if_neg hlt, hget]
  rcases hb with rfl | rfl
  · cases b <;> simp only [if_neg hlt', hget'] <;> simp
  · cases height <;> simp only [if_neg hlt', hget'] <;> simp

/-- A node whose bit is set is read as the hash of its two children, read one after the other,
when they differ.
Source: `src/merkleblock.cpp` `CPartialMerkleTree::TraverseAndExtract`
Kind: L -/
theorem extractsAs_pair {n height pos : Nat} {bL bR : List Bool} {hL hR : List Uint256}
    {a b : Uint256} {mL mR : List Uint256} {ML MR : List Nat}
    (hl : ExtractsAs hash n height (pos * 2) bL hL a mL ML)
    (hr : ExtractsAs hash n height (pos * 2 + 1) bR hR b mR MR)
    (hw : pos * 2 + 1 < calcTreeWidth n height) (hne : b ≠ a) :
    ExtractsAs hash n (height + 1) pos (true :: (bL ++ bR)) (hL ++ hR) (hash a b) (mL ++ mR)
      (ML ++ MR) := by
  intro T s restB restH hT hbits hhash
  rw [List.cons_append] at hbits
  obtain ⟨hlt, hget, hbits'⟩ := getD_of_drop_eq_cons false hbits
  rw [List.append_assoc] at hbits' hhash
  have hleft := hl T { s with nBitsUsed := s.nBitsUsed + 1 } _ _ hT hbits' hhash
  have hright := hr T
    { s with nBitsUsed := s.nBitsUsed + 1 + bL.length, nHashUsed := s.nHashUsed + hL.length,
             vMatch := s.vMatch ++ mL, vnIndex := s.vnIndex ++ ML } restB restH hT
    (by rw [← List.drop_drop, hbits', List.drop_left])
    (by rw [← List.drop_drop, hhash, List.drop_left])
  rw [traverseAndExtract, if_neg hlt, hget]
  simp only
  rw [hleft]
  simp only
  rw [hT, if_pos hw, hright]
  simp only [if_neg hne, List.length_cons, List.length_append, List.append_assoc]
  congr 2 <;> omega

/-- A node whose bit is set and that has no right child is read as the hash of its left child
with itself.
Source: `src/merkleblock.cpp` `CPartialMerkleTree::TraverseAndExtract`
Kind: L -/
theorem extractsAs_single {n height pos : Nat} {bL : List Bool} {hL : List Uint256}
    {a : Uint256} {mL : List Uint256} {ML : List Nat}
    (hl : ExtractsAs hash n height (pos * 2) bL hL a mL ML)
    (hw : ¬ pos * 2 + 1 < calcTreeWidth n height) :
    ExtractsAs hash n (height + 1) pos (true :: bL) hL (hash a a) mL ML := by
  intro T s restB restH hT hbits hhash
  rw [List.cons_append] at hbits
  obtain ⟨hlt, hget, hbits'⟩ := getD_of_drop_eq_cons false hbits
  have hleft := hl T { s with nBitsUsed := s.nBitsUsed + 1 } _ _ hT hbits' hhash
  rw [traverseAndExtract, if_neg hlt, hget]
  simp only
  rw [hleft]
  simp only [hT, if_neg hw, List.length_cons]
  congr 2
  omega

end extract

/-! ## Building a subtree and reading it back -/

section build

variable (hash : Uint256 → Uint256 → Uint256)

/-- Under a node that is in the tree there is a leaf.
Source: none: specification
Kind: L -/
theorem length_leavesUnder_pos {n height pos : Nat} (h : pos * 2 ^ height < n) :
    0 < (leavesUnder n height pos).length := by
  have hstep : (pos + 1) * 2 ^ height = pos * 2 ^ height + 2 ^ height := by ring
  have hpos := Nat.two_pow_pos height
  rw [length_leavesUnder]
  omega

/-- **A subtree reads back.** For txids with no two equal sibling nodes, `TraverseAndBuild` at a
node of the tree appends bits and hashes, no more hashes than bits nor than leaves under the
node, that `TraverseAndExtract` reads back, wherever they are placed, as the node's hash with the
node's matched txids at their positions. The induction follows the recursion of the traversal
on `height`.
Source: `src/merkleblock.cpp` `CPartialMerkleTree::TraverseAndBuild`, `CPartialMerkleTree::TraverseAndExtract`
Kind: L -/
theorem traverseAndBuild_spec {vTxid : List Uint256} (vMatch : List Bool) (hv : vTxid ≠ [])
    (hd : ¬ EqualSiblings hash vTxid) :
    ∀ height pos (t : CPartialMerkleTree), t.nTransactions = vTxid.length →
      vTxid.length + 2 ^ height ≤ 2 ^ 32 → pos * 2 ^ height < vTxid.length →
      ∃ bits hashes x, node hash height pos vTxid = some x ∧
        traverseAndBuild hash vTxid vMatch height pos t =
          .ok { t with vBits := t.vBits ++ bits, vHash := t.vHash ++ hashes } ∧
        hashes.length ≤ bits.length ∧ bits.length < 2 ^ (height + 1) ∧
        hashes.length ≤ (leavesUnder vTxid.length height pos).length ∧
        ExtractsAs hash vTxid.length height pos bits hashes x
          ((matchedUnder vTxid.length vMatch height pos).map fun p => vTxid.getD p Uint256.zero)
          (matchedUnder vTxid.length vMatch height pos) := by
  intro height
  induction height with
  | zero =>
    intro pos ⟨n, vBits, vHash, fBad⟩ ht hw hpos
    subst ht
    rw [pow_zero, mul_one] at hpos
    obtain ⟨x, hx⟩ := Option.isSome_iff_exists.mp
      ((node_isSome_iff hash (L := 0)).mpr (by rwa [pow_zero, mul_one]))
    have hleaves : leavesUnder vTxid.length 0 pos = [pos] := by
      rw [leavesUnder_zero, if_pos hpos]
    have hxget : vTxid.getD pos Uint256.zero = x := by
      rw [List.getD_eq_getElem?_getD, ← node_zero hash, hx]
      rfl
    have hb : parentOfMatch vTxid.length vMatch 0 pos = vMatch.getD pos false := by
      rw [parentOfMatch_eq, hleaves, List.any_cons, List.any_nil, Bool.or_false]
    -- a leaf: its bit and its txid
    refine ⟨[vMatch.getD pos false], [x], x, hx, ?_, le_refl _, by simp, by rw [hleaves]; rfl, ?_⟩
    · unfold traverseAndBuild
      simp only [hb]
      rw [calcHash_eq hash hv hw hx]
      rfl
    · have hstored := @extractsAs_stored hash vTxid.length 0 pos (vMatch.getD pos false) x (.inl rfl)
      have hfilter : matchedUnder vTxid.length vMatch 0 pos =
          if vMatch.getD pos false = true then [pos] else [] := by
        rw [matchedUnder, hleaves, List.filter_cons, List.filter_nil]
      rw [hfilter]
      cases hg : vMatch.getD pos false <;> rw [hg] at hstored
      · show ExtractsAs hash vTxid.length 0 pos [false] [x] x [] []
        exact hstored
      · show ExtractsAs hash vTxid.length 0 pos [true] [x] x [vTxid.getD pos Uint256.zero] [pos]
        rw [hxget]
        exact hstored
  | succ height ih =>
    intro pos ⟨n, vBits, vHash, fBad⟩ ht hw hpos
    subst ht
    have hw' := width_bound_of_le hw (Nat.le_succ height)
    obtain ⟨x, hx⟩ := Option.isSome_iff_exists.mp ((node_isSome_iff hash).mpr hpos)
    by_cases hf : parentOfMatch vTxid.length vMatch (height + 1) pos = true
    · -- a node above a match: its bit, then the left subtree and the right one if there is one
      obtain ⟨a, ha₂, hrest⟩ := node_succ_cases hash hx
      have ha : node hash height (pos * 2) vTxid = some a := by rwa [mul_comm]
      obtain ⟨bL, hL, a', ha', hbuildL, hlenL, hbitsL, hleavesL, hextL⟩ :=
        ih (pos * 2) ⟨vTxid.length, vBits ++ [true], vHash, fBad⟩ rfl hw'
          ((node_isSome_iff hash).mp (by rw [ha]; rfl))
      obtain rfl : a = a' := Option.some_injective _ (ha.symm.trans ha')
      have hmatched := matchedUnder_succ vTxid.length vMatch height pos
      have hleaves := leavesUnder_succ vTxid.length height pos
      rcases hrest with ⟨b, hb₂, rfl⟩ | ⟨hb₂, rfl⟩
      · have hb : node hash height (pos * 2 + 1) vTxid = some b := by rwa [mul_comm]
        have hposR : (pos * 2 + 1) * 2 ^ height < vTxid.length :=
          (node_isSome_iff hash).mp (by rw [hb]; rfl)
        have hwR : pos * 2 + 1 < calcTreeWidth vTxid.length height :=
          (lt_calcTreeWidth_iff hw').mpr hposR
        have hne : b ≠ a := fun hba => hd ⟨height, pos, a, ha₂, hba ▸ hb₂⟩
        obtain ⟨bR, hR, b', hb', hbuildR, hlenR, hbitsR, hleavesR, hextR⟩ :=
          ih (pos * 2 + 1) ⟨vTxid.length, vBits ++ [true] ++ bL, vHash ++ hL, fBad⟩ rfl hw' hposR
        obtain rfl : b = b' := Option.some_injective _ (hb.symm.trans hb')
        refine ⟨true :: (bL ++ bR), hL ++ hR, hash a b, hx, ?_, ?_, ?_, ?_, ?_⟩
        · unfold traverseAndBuild
          simp only [hf]
          rw [hbuildL, except_ok_bind]
          simp only
          rw [if_pos hwR, hbuildR]
          simp only [List.append_assoc, List.cons_append, List.nil_append]
        · simp only [List.length_append, List.length_cons]
          omega
        · rw [List.length_cons, List.length_append, pow_succ 2 (height + 1)]
          omega
        · rw [hleaves, List.length_append, List.length_append]
          omega
        · rw [hmatched, List.map_append]
          exact extractsAs_pair hash hextL hextR hwR hne
      · have hwR : ¬ pos * 2 + 1 < calcTreeWidth vTxid.length height := by
          rw [lt_calcTreeWidth_iff hw', ← node_isSome_iff hash, mul_comm, hb₂]
          simp
        have hnil : leavesUnder vTxid.length height (pos * 2 + 1) = [] :=
          leavesUnder_eq_nil (not_lt.mp ((lt_calcTreeWidth_iff hw').not.mp hwR))
        refine ⟨true :: bL, hL, hash a a, hx, ?_, ?_, ?_, ?_, ?_⟩
        · unfold traverseAndBuild
          simp only [hf]
          rw [hbuildL, except_ok_bind]
          simp only
          rw [if_neg hwR]
          simp only [List.append_assoc, List.singleton_append, except_pure]
        · simp only [List.length_cons]
          omega
        · rw [List.length_cons, pow_succ 2 (height + 1)]
          omega
        · rw [hleaves, hnil, List.append_nil]
          exact hleavesL
        · rw [hmatched, matchedUnder, matchedUnder, hnil, List.filter_nil, List.append_nil]
          exact extractsAs_single hash hextL hwR
    · -- a node with no match below: its bit and its hash
      have hf' : parentOfMatch vTxid.length vMatch (height + 1) pos = false := by simpa using hf
      refine ⟨[false], [x], x, hx, ?_, le_refl _, ?_, length_leavesUnder_pos hpos, ?_⟩
      · unfold traverseAndBuild
        simp only [hf']
        rw [calcHash_eq hash hv hw hx]
        rfl
      · simp
      · rw [parentOfMatch_eq_false_iff.mp hf', List.map_nil]
        simpa using @extractsAs_stored hash vTxid.length (height + 1) pos false x (.inr rfl)

end build

/-! ## What a faultless traversal collects -/

section sound

variable (hash : Uint256 → Uint256 → Uint256)

/-- The pairs of hashes `TraverseAndExtract` combines, in the order it combines them.
Source: none: specification
Kind: D -/
def extractPairs (t : CPartialMerkleTree) : Nat → Nat → ExtractState → List (Uint256 × Uint256)
  | height, pos, s =>
    if s.nBitsUsed ≥ t.vBits.length then []
    else
      let fParentOfMatch := t.vBits.getD s.nBitsUsed false
      let s := { s with nBitsUsed := s.nBitsUsed + 1 }
      match height, fParentOfMatch with
      | height + 1, true =>
        let left := traverseAndExtract hash t height (pos * 2) s
        if pos * 2 + 1 < calcTreeWidth t.nTransactions height then
          let right := traverseAndExtract hash t height (pos * 2 + 1) left.2
          extractPairs t height (pos * 2) s ++ extractPairs t height (pos * 2 + 1) left.2 ++
            [(left.1, right.1)]
        else extractPairs t height (pos * 2) s ++ [(left.1, left.1)]
      | _, _ => []

/-- A fault, once met, stays.
Source: `src/merkleblock.cpp` `CPartialMerkleTree::TraverseAndExtract`
Kind: L -/
theorem traverseAndExtract_fBad (T : CPartialMerkleTree) (height pos : Nat) (s : ExtractState) :
    s.fBad = true → (traverseAndExtract hash T height pos s).2.fBad = true := by
  fun_induction traverseAndExtract hash T height pos s with
  | case1 => intro _; rfl
  | case2 _ _ _ _ _ _ _ _ _ _ ihl ihr =>
    intro h
    dsimp only
    split_ifs
    · rfl
    · exact ihr (ihl h)
  | case3 _ _ _ _ _ _ _ _ _ ihl => exact ihl
  | case4 => intro _; rfl
  | case5 =>
    intro h
    dsimp only
    split_ifs <;> exact h

/-- **What a faultless traversal collects is in the block.** In a tree of `vTxid.length`
transactions, whatever its bits and hashes, a traversal of the node at `pos` of level `height`,
below the top of the tree, that meets no fault and returns the node's hash in the tree of
`vTxid` has appended positions of leaves under the node, in increasing order, to `vnIndex`, and
the txids at those positions to `vMatch` — unless `hash` takes a pair the traversal combines and
a different pair the tree of `vTxid` combines to one value. The induction follows the recursion
of the traversal; at a node it descends into, the children's hashes are the true ones or they
collide with them.
Source: `src/merkleblock.cpp` `CPartialMerkleTree::TraverseAndExtract`
Kind: L -/
theorem traverseAndExtract_sound {T : CPartialMerkleTree} {vTxid : List Uint256}
    (hT : T.nTransactions = vTxid.length) (height pos : Nat) (s : ExtractState) :
    vTxid.length + 2 ^ height ≤ 2 ^ 32 → 2 ^ height < 2 * vTxid.length →
      ∀ x, node hash height pos vTxid = some x →
      s.fBad = false → (traverseAndExtract hash T height pos s).2.fBad = false →
      (traverseAndExtract hash T height pos s).1 = x →
      (∃ M, M.Sublist (leavesUnder vTxid.length height pos) ∧
        (traverseAndExtract hash T height pos s).2.vnIndex = s.vnIndex ++ M ∧
        (traverseAndExtract hash T height pos s).2.vMatch =
          s.vMatch ++ M.map fun p => vTxid.getD p Uint256.zero) ∨
      CollidesOn hash fun p => p ∈ extractPairs hash T height pos s ∨ CombinesPair hash vTxid p := by
  fun_induction traverseAndExtract hash T height pos s with
  | case1 => intro _ _ _ _ _ hbad; simp at hbad
  | case2 pos s₀ hbits f s height hft left hw right ihl ihr =>
    intro hbound htop x hx hs hbad hroot
    have hbound' := width_bound_of_le hbound (Nat.le_succ height)
    have htop' : 2 ^ height < 2 * vTxid.length := by rw [pow_succ] at htop; omega
    have hpairs : extractPairs hash T (height + 1) pos s₀ =
        extractPairs hash T height (pos * 2) s ++ extractPairs hash T height (pos * 2 + 1) left.2 ++
          [(left.1, right.1)] := by
      have hf : T.vBits.getD s₀.nBitsUsed false = true := hft
      rw [extractPairs, if_neg hbits]
      simp only [hf, if_pos hw]
      rfl
    rw [hT] at hw
    obtain ⟨a, ha, hrest⟩ := node_succ_cases hash hx
    rw [mul_comm] at ha hrest
    -- the right child exists, so `x` combines two nodes
    obtain ⟨b, hb, rfl⟩ : ∃ b, node hash height (pos * 2 + 1) vTxid = some b ∧ x = hash a b := by
      rcases hrest with h | ⟨hnone, _⟩
      · exact h
      · rw [lt_calcTreeWidth_iff hbound', ← node_isSome_iff hash, hnone] at hw
        simp at hw
    dsimp only at hbad hroot
    split_ifs at hbad with heq
    have hbadL : left.2.fBad = false := by
      by_contra hl
      rw [traverseAndExtract_fBad hash T height (pos * 2 + 1) left.2 (by simpa using hl)] at hbad
      simp at hbad
    -- a collision below is a collision here
    have hmono : ∀ P : Uint256 × Uint256 → Prop, (∀ p, P p → p ∈ extractPairs hash T (height + 1) pos s₀) →
        CollidesOn hash (fun p => P p ∨ CombinesPair hash vTxid p) →
        CollidesOn hash fun p => p ∈ extractPairs hash T (height + 1) pos s₀ ∨
          CombinesPair hash vTxid p :=
      fun P hP hcol => hcol.mono fun p => Or.imp_left (hP p)
    by_cases hc : left.1 = a ∧ right.1 = b
    · rcases ihl hbound' htop' a ha hs hbadL hc.1 with ⟨ML, hsubL, hidxL, hmL⟩ | hcol
      · rcases ihr hbound' htop' b hb hbadL hbad hc.2 with ⟨MR, hsubR, hidxR, hmR⟩ | hcol
        · refine .inl ⟨ML ++ MR, ?_, ?_, ?_⟩
          · rw [leavesUnder_succ]
            exact hsubL.append hsubR
          · dsimp only
            rw [if_neg heq, hidxR, hidxL, List.append_assoc]
          · dsimp only
            rw [if_neg heq, hmR, hmL, List.map_append, List.append_assoc]
        · exact .inr (hmono _ (fun p hp => by rw [hpairs]; simp [hp]) hcol)
      · exact .inr (hmono _ (fun p hp => by rw [hpairs]; simp [hp]) hcol)
    · -- the children read differ from the true ones and hash to the same node
      have hq : CombinesPair hash vTxid (a, b) :=
        ⟨height, pos, by omega, by rwa [mul_comm], by rw [mul_comm, hb]; rfl⟩
      exact .inr ⟨(left.1, right.1), (a, b), .inl (by rw [hpairs]; simp), .inr hq,
        fun h => hc (Prod.mk.inj h), hroot⟩
  | case3 pos s₀ hbits f s height hft left hw ihl =>
    intro hbound htop x hx hs hbad hroot
    have hbound' := width_bound_of_le hbound (Nat.le_succ height)
    have htop' : 2 ^ height < 2 * vTxid.length := by rw [pow_succ] at htop; omega
    have hpairs : extractPairs hash T (height + 1) pos s₀ =
        extractPairs hash T height (pos * 2) s ++ [(left.1, left.1)] := by
      have hf : T.vBits.getD s₀.nBitsUsed false = true := hft
      rw [extractPairs, if_neg hbits]
      simp only [hf, if_neg hw]
      rfl
    rw [hT] at hw
    obtain ⟨a, ha, hrest⟩ := node_succ_cases hash hx
    rw [mul_comm] at ha hrest
    -- no right child, so `x` combines the left one with itself
    obtain ⟨hnone, rfl⟩ : node hash height (pos * 2 + 1) vTxid = none ∧ x = hash a a := by
      rcases hrest with ⟨b, hb, _⟩ | h
      · rw [lt_calcTreeWidth_iff hbound', ← node_isSome_iff hash, hb] at hw
        simp at hw
      · exact h
    dsimp only at hbad hroot
    by_cases hc : left.1 = a
    · rcases ihl hbound' htop' a ha hs hbad hc with ⟨ML, hsubL, hidxL, hmL⟩ | hcol
      · refine .inl ⟨ML, ?_, hidxL, hmL⟩
        rw [leavesUnder_succ]
        exact hsubL.trans (List.sublist_append_left _ _)
      · exact .inr (hcol.mono fun p => Or.imp_left fun hp => by rw [hpairs]; simp [hp])
    · have hq : CombinesPair hash vTxid (a, a) :=
        ⟨height, pos, by omega, by rwa [mul_comm], by rw [mul_comm, hnone]; rfl⟩
      exact .inr ⟨(left.1, left.1), (a, a), .inl (by rw [hpairs]; simp), .inr hq,
        fun h => hc (Prod.mk.inj h).1, hroot⟩
  | case4 => intro _ _ _ _ _ hbad; simp at hbad
  | case5 height pos s₀ _ f s _ y s' hnot =>
    intro _ _ x hx _ _ hroot
    dsimp only at hroot
    by_cases hleaf : height = 0 ∧ f = true
    · obtain ⟨rfl, hf⟩ := hleaf
      -- a matched leaf: its stored hash is the txid at its position
      have hpos : pos < vTxid.length := by
        simpa using (node_isSome_iff hash (L := 0)).mp (by rw [hx]; rfl)
      have hget : vTxid.getD pos Uint256.zero = y := by
        rw [List.getD_eq_getElem?_getD, ← node_zero hash, hx, hroot]
        rfl
      refine .inl ⟨[pos], ?_, ?_, ?_⟩
      · rw [leavesUnder_zero, if_pos hpos]
      · dsimp only
        rw [if_pos ⟨rfl, hf⟩]
      · dsimp only
        rw [if_pos ⟨rfl, hf⟩, List.map_singleton, hget]
    · refine .inl ⟨[], List.nil_sublist _, ?_, ?_⟩
      · dsimp only
        rw [if_neg hleaf, List.append_nil]
      · dsimp only
        rw [if_neg hleaf, List.map_nil, List.append_nil]

end sound

/-! ## `ExtractMatches` -/

section extractMatches

variable (hash : Uint256 → Uint256 → Uint256)

/-- `ExtractMatches` returns the traversal from the root when its checks pass.
Source: `src/merkleblock.cpp` `CPartialMerkleTree::ExtractMatches`
Kind: L -/
theorem extractMatches_eq_of_traverse {t : CPartialMerkleTree} {vnIndex : List Nat}
    {r : Uint256 × ExtractState} (h0 : 0 < t.nTransactions)
    (hmax : t.nTransactions ≤ maxBlockWeight / minTransactionWeight)
    (hh : t.vHash.length ≤ t.nTransactions) (hb : t.vHash.length ≤ t.vBits.length)
    (hr : traverseAndExtract hash t (treeHeight t.nTransactions) 0 ⟨0, 0, [], vnIndex, t.fBad⟩ = r)
    (hbad : r.2.fBad = false) (hbits : (r.2.nBitsUsed + 7) / 8 = (t.vBits.length + 7) / 8)
    (hused : r.2.nHashUsed = t.vHash.length) :
    extractMatches hash t vnIndex = r := by
  unfold extractMatches
  rw [if_neg (by omega), if_neg (by omega), if_neg (by omega), if_neg (by omega)]
  dsimp only
  rw [hr, if_neg (by simp [hbad]), if_neg (by simp [hbits]), if_neg (by simp [hused])]

/-- `ExtractMatches` returns a hash other than the null one only from a faultless traversal from
the root of a tree of at most `MAX_BLOCK_WEIGHT / MIN_TRANSACTION_WEIGHT` transactions.
Source: `src/merkleblock.cpp` `CPartialMerkleTree::ExtractMatches`
Kind: L -/
theorem extractMatches_of_ne_zero {t : CPartialMerkleTree} {vnIndex : List Nat}
    (h : (extractMatches hash t vnIndex).1 ≠ Uint256.zero) :
    0 < t.nTransactions ∧ t.nTransactions ≤ maxBlockWeight / minTransactionWeight ∧
      extractMatches hash t vnIndex =
        traverseAndExtract hash t (treeHeight t.nTransactions) 0 ⟨0, 0, [], vnIndex, t.fBad⟩ ∧
      (extractMatches hash t vnIndex).2.fBad = false := by
  unfold extractMatches at h ⊢
  dsimp only at h ⊢
  split_ifs at h ⊢ with h0 hmax hh hb hbad hbits hused
  all_goals try exact absurd rfl h
  exact ⟨by omega, by omega, rfl, by simpa using hbad⟩

/-- The first component of `ComputeMerkleRoot` is the root of the level-by-level tree.
Source: `src/consensus/merkle.cpp` `ComputeMerkleRoot`
Kind: L -/
theorem computeMerkleRoot_fst {leaves : List Uint256} (hlen : leaves.length ≤ 2 ^ 31) :
    (computeMerkleRoot hash leaves).1 = root hash Uint256.zero leaves :=
  (merkleComputation_eq hash false (2 ^ 32 - 1) hlen).1

/-- The root of a block of `n` txids, `0 < n ≤ MAX_BLOCK_WEIGHT / MIN_TRANSACTION_WEIGHT`, is the
node at the top of its tree, `treeHeight n` levels up.
Source: `src/merkleblock.cpp` `CPartialMerkleTree::ExtractMatches`; `src/consensus/merkle.cpp` `ComputeMerkleRoot`
Kind: L -/
theorem node_treeHeight {vTxid : List Uint256} (h0 : 0 < vTxid.length)
    (hmax : vTxid.length ≤ maxBlockWeight / minTransactionWeight) :
    vTxid.length + 2 ^ treeHeight vTxid.length ≤ 2 ^ 32 ∧
      vTxid.length ≤ 2 ^ treeHeight vTxid.length ∧ 2 ^ treeHeight vTxid.length < 2 * vTxid.length ∧
      node hash (treeHeight vTxid.length) 0 vTxid = some (computeMerkleRoot hash vTxid).1 := by
  have hmax' : vTxid.length ≤ 16666 := hmax
  obtain ⟨-, hle, hlt⟩ := treeHeight_spec h0 (by omega)
  refine ⟨by omega, hle, hlt, ?_⟩
  rw [computeMerkleRoot_fst hash (by omega)]
  exact node_eq_root hash Uint256.zero h0 hle hlt

/-- The pairs of hashes the traversal of `ExtractMatches` from the root combines.
Source: none: specification
Kind: D -/
def extractMatchesPairs (t : CPartialMerkleTree) (vnIndex : List Nat) : List (Uint256 × Uint256) :=
  extractPairs hash t (treeHeight t.nTransactions) 0 ⟨0, 0, [], vnIndex, t.fBad⟩

/-- **`ExtractMatches` authenticates its matches.** Take any partial Merkle tree, as read from
the network, that claims the number of transactions of a block `vTxid`. If `ExtractMatches`
returns the block's Merkle root (as `ComputeMerkleRoot` computes it, and not the null hash), the
positions it appends to `vnIndex` are positions of the block, in increasing order, and the
txids it returns are the block's txids at those positions — unless the double SHA-256 takes a
pair that `ExtractMatches` hashes and a different pair that `ComputeMerkleRoot` hashes to one
value.
Source: `src/merkleblock.cpp` `CPartialMerkleTree::ExtractMatches`
Kind: P -/
theorem extractMatches_sound (t : CPartialMerkleTree) (vnIndex : List Nat) (vTxid : List Uint256)
    (hn : t.nTransactions = vTxid.length)
    (hroot : (extractMatches hash t vnIndex).1 = (computeMerkleRoot hash vTxid).1)
    (hz : (computeMerkleRoot hash vTxid).1 ≠ Uint256.zero) :
    (∃ M, M.Sublist (List.range vTxid.length) ∧
      (extractMatches hash t vnIndex).2.vnIndex = vnIndex ++ M ∧
      (extractMatches hash t vnIndex).2.vMatch = M.map fun p => vTxid.getD p Uint256.zero) ∨
    CollidesOn hash fun p => p ∈ extractMatchesPairs hash t vnIndex ∨ CombinesPair hash vTxid p := by
  obtain ⟨h0, hmax, heq, hbad⟩ := extractMatches_of_ne_zero hash (hroot ▸ hz)
  rw [hn] at h0 hmax
  obtain ⟨hbound, hle, htop, hnode⟩ := node_treeHeight hash h0 hmax
  have hs : t.fBad = false := by
    by_contra hb
    rw [heq, traverseAndExtract_fBad hash t _ 0 _ (by simpa using hb)] at hbad
    simp at hbad
  rw [extractMatchesPairs]
  rw [heq, hn] at hbad hroot ⊢
  rcases traverseAndExtract_sound hash hn _ 0 _ hbound htop _ hnode hs hbad hroot with
    ⟨M, hsub, hidx, hm⟩ | hcol
  · rw [leavesUnder_top hle] at hsub
    exact .inl ⟨M, hsub, hidx, by rw [hm, List.nil_append]⟩
  · exact .inr hcol

/-- Two transactions `1` and `2` under `hash a b = a + 2 b + 1`; the tree matches the first.
Source: `src/merkleblock.cpp` `CPartialMerkleTree::ExtractMatches`
Kind: W -/
theorem extractMatches_sound_two :
    let hash := fun (a b : Uint256) => Uint256.ofNat (a.val.val + 2 * b.val.val + 1)
    let t : CPartialMerkleTree := ⟨2, [true, true, false], [Uint256.ofNat 1, Uint256.ofNat 2], false⟩
    (∃ M, M.Sublist (List.range 2) ∧
      (extractMatches hash t []).2.vnIndex = [] ++ M ∧
      (extractMatches hash t []).2.vMatch =
        M.map fun p => [Uint256.ofNat 1, Uint256.ofNat 2].getD p Uint256.zero) ∨
    CollidesOn hash fun p => p ∈ extractMatchesPairs hash t [] ∨
      CombinesPair hash [Uint256.ofNat 1, Uint256.ofNat 2] p :=
  extractMatches_sound _ _ _ [Uint256.ofNat 1, Uint256.ofNat 2] rfl (by decide +kernel)
    (by decide +kernel)

end extractMatches

/-! ## The bits on the wire -/

section wire

/-- The mask of bit `j` of a byte.
Source: `src/merkleblock.cpp` `CPartialMerkleTree::SerializationOp` (`1 << (p % 8)`)
Kind: L -/
theorem toNat_one_shiftLeft {j : Nat} (hj : j < 8) : ((1 : UInt8) <<< j.toUInt8).toNat = 2 ^ j := by
  rw [UInt8.toNat_shiftLeft, UInt8.toNat_one]
  simp only [Nat.toUInt8_eq]
  interval_cases j <;> rfl

/-- The test of the read loop is bit `j` of the byte.
Source: `src/merkleblock.cpp` `CPartialMerkleTree::SerializationOp`
Kind: L -/
theorem and_one_shiftLeft_bne_zero (b : UInt8) {j : Nat} (hj : j < 8) :
    (b &&& (1 <<< j.toUInt8) != 0) = b.toNat.testBit j := by
  have h := and_one_shiftLeft_ne_zero_iff b.toNat j
  rw [Nat.one_shiftLeft, ← toNat_one_shiftLeft hj, ← UInt8.toNat_and] at h
  rw [Bool.eq_iff_iff, bne_iff_ne, ne_eq, UInt8.ext_iff.not, UInt8.toNat_zero]
  exact h

/-- The update of the write loop sets bit `i` of the byte to the bit written.
Source: `src/merkleblock.cpp` `CPartialMerkleTree::SerializationOp`
Kind: L -/
theorem testBit_or_shiftLeft (b : UInt8) (x : Bool) {i : Nat} (hi : i < 8) (j : Nat) :
    (b ||| (x.toUInt8 <<< i.toUInt8)).toNat.testBit j =
      (b.toNat.testBit j || (x && decide (i = j))) := by
  rw [UInt8.toNat_or, Nat.testBit_or]
  cases x
  · rw [show false.toUInt8 = 0 from rfl, UInt8.zero_shiftLeft]
    simp
  · rw [show (true.toUInt8 <<< i.toUInt8) = 1 <<< i.toUInt8 from rfl, toNat_one_shiftLeft hi,
      Nat.testBit_two_pow]
    simp

/-- Reading a list after one entry is modified.
Source: none: infrastructure
Kind: L -/
theorem getD_modify {β : Type} (l : List β) (i k : Nat) (f : β → β) (d : β) :
    (l.modify i f).getD k d = if i = k ∧ k < l.length then f (l.getD k d) else l.getD k d := by
  rw [List.getD_eq_getElem?_getD, List.getElem?_modify, List.getD_eq_getElem?_getD]
  rcases hk : l[k]? with _ | a
  · have : ¬ k < l.length := by simpa using List.getElem?_eq_none_iff.mp hk
    simp [this]
  · have : k < l.length := (List.getElem?_eq_some_iff.mp hk).1
    by_cases hik : i = k <;> simp [hik, this]

/-- After the turns for the bits below `m`, bit `j` of byte `k` is bit `8 k + j` when that is
below `m`, and clear otherwise. The induction is on the turns of the write loop.
Source: `src/merkleblock.cpp` `CPartialMerkleTree::SerializationOp` (the packing loop)
Kind: L -/
theorem packBits_loop (vBits : List Bool) (m : Nat) (hm : m ≤ vBits.length) :
    ((List.range m).foldl (packBit vBits) (List.replicate ((vBits.length + 7) / 8) 0)).length =
        (vBits.length + 7) / 8 ∧
      ∀ k j, j < 8 →
        (((List.range m).foldl (packBit vBits)
            (List.replicate ((vBits.length + 7) / 8) 0)).getD k 0).toNat.testBit j =
          (decide (8 * k + j < m) && vBits.getD (8 * k + j) false) := by
  induction m with
  | zero =>
    refine ⟨List.length_replicate, fun k j _ => ?_⟩
    rw [List.range_zero, List.foldl_nil, List.getD_eq_getElem?_getD, List.getElem?_replicate]
    split_ifs <;> simp
  | succ m ih =>
    obtain ⟨hlen, hbit⟩ := ih (by omega)
    rw [List.range_succ, List.foldl_append, List.foldl_cons, List.foldl_nil, packBit]
    set V := (List.range m).foldl (packBit vBits) (List.replicate ((vBits.length + 7) / 8) 0)
    refine ⟨by rw [List.length_modify, hlen], fun k j hj => ?_⟩
    rw [getD_modify]
    by_cases hk : m / 8 = k
    · -- the byte of bit `m`: bit `m % 8` is set to `vBits[m]`
      rw [if_pos ⟨hk, by omega⟩, testBit_or_shiftLeft _ _ (Nat.mod_lt m (by norm_num)), hbit k j hj]
      by_cases hjm : m % 8 = j
      · have hm8 : 8 * k + j = m := by omega
        simp [hm8, hjm]
      · have hne : 8 * k + j ≠ m := by omega
        have hiff : (8 * k + j < m + 1) ↔ (8 * k + j < m) := by omega
        simp [hjm, hiff]
    · -- another byte: unchanged
      have hne : 8 * k + j ≠ m := by omega
      have hiff : (8 * k + j < m + 1) ↔ (8 * k + j < m) := by omega
      rw [if_neg (fun h => hk h.1), hbit k j hj]
      simp [hiff]

/-- The bits take one byte per eight, rounded up.
Source: `src/merkleblock.cpp` `CPartialMerkleTree::SerializationOp` (the packing loop)
Kind: L -/
theorem length_packBits (vBits : List Bool) : (packBits vBits).length = (vBits.length + 7) / 8 :=
  (packBits_loop vBits vBits.length le_rfl).1

/-- **The bits read back** from their bytes, followed by clear bits up to a whole byte.
Source: `src/merkleblock.cpp` `CPartialMerkleTree::SerializationOp`
Kind: L -/
theorem unpackBits_packBits (vBits : List Bool) :
    unpackBits (packBits vBits) =
      vBits ++ List.replicate ((vBits.length + 7) / 8 * 8 - vBits.length) false := by
  have hlen : (packBits vBits).length = (vBits.length + 7) / 8 := length_packBits vBits
  have hbit : ∀ k j, j < 8 → ((packBits vBits).getD k 0).toNat.testBit j =
      (decide (8 * k + j < vBits.length) && vBits.getD (8 * k + j) false) :=
    (packBits_loop vBits vBits.length le_rfl).2
  have hround : vBits.length ≤ (vBits.length + 7) / 8 * 8 := by omega
  apply List.ext_getElem
  · simp only [unpackBits, List.length_map, List.length_range, List.length_append,
      List.length_replicate, hlen]
    omega
  · intro p _ _
    have hp8 := Nat.mod_lt p (show 8 > 0 by norm_num)
    simp only [unpackBits, List.getElem_map, List.getElem_range]
    rw [and_one_shiftLeft_bne_zero _ hp8, hbit _ _ hp8, Nat.div_add_mod, List.getElem_append]
    split_ifs with hpn
    · simp [hpn, List.getD_eq_getElem?_getD]
    · simp [hpn]

/-- A tree of fewer than `2 ^ 32` transactions, at most `MAX_SIZE` hashes and at most `MAX_SIZE`
bytes of bits reads back from its bytes, with its bits padded to a whole byte and `fBad` clear.
Source: `src/merkleblock.cpp` `CPartialMerkleTree::SerializationOp`
Kind: L -/
theorem reads_unserialize (t : CPartialMerkleTree) (hn : t.nTransactions < 2 ^ 32)
    (hh : t.vHash.length ≤ maxSize) (hb : (t.vBits.length + 7) / 8 ≤ maxSize) :
    Reads unserialize (serialize t)
      ⟨t.nTransactions,
        t.vBits ++ List.replicate ((t.vBits.length + 7) / 8 * 8 - t.vBits.length) false,
        t.vHash, false⟩ := by
  have h32 := reads_serReaddata32 t.nTransactions.toUInt32
  have hvec := reads_unserializeVector (g := id) hh fun a _ => reads_unserializeUint256 a
  have hbytes := reads_unserializeBytes (v := packBits t.vBits) (by rw [length_packBits]; exact hb)
  refine (h32.bind (hvec.bind (hbytes.bind (f := fun vBytes =>
    (pure ⟨t.nTransactions.toUInt32.toNat, unpackBits vBytes, t.vHash.map id, false⟩ :
      Reader CPartialMerkleTree)) (Reads.pure _)))).of_eq ?_ ?_
  · rw [serialize, List.append_nil, List.append_assoc]
  · rw [unpackBits_packBits, List.map_id, UInt32.toNat_ofNat_of_lt' hn]

end wire

/-! ## The round trip -/

section roundTrip

variable (hash : Uint256 → Uint256 → Uint256)

/-- **A partial Merkle tree reads back.** For a block of `1 ..= MAX_BLOCK_WEIGHT /
MIN_TRANSACTION_WEIGHT` txids no two sibling nodes of whose Merkle tree are equal, and any match
flags, the constructor builds a tree that, serialized and read back, passes `ExtractMatches`: it
returns the block's Merkle root as `ComputeMerkleRoot` computes it, the txids whose flag is set
in block order, and their positions appended to `vnIndex`.
Source: `src/merkleblock.cpp` `CPartialMerkleTree::CPartialMerkleTree`, `CPartialMerkleTree::SerializationOp`, `CPartialMerkleTree::ExtractMatches`
Kind: P -/
theorem extractMatches_unserialize_build (vTxid : List Uint256) (vMatch : List Bool)
    (vnIndex : List Nat) (hv : vTxid ≠ [])
    (hmax : vTxid.length ≤ maxBlockWeight / minTransactionWeight)
    (hd : ¬ EqualSiblings hash vTxid) :
    ∃ t t', build hash vTxid vMatch = .ok t ∧ Reads unserialize (serialize t) t' ∧
      (extractMatches hash t' vnIndex).1 = (computeMerkleRoot hash vTxid).1 ∧
      (extractMatches hash t' vnIndex).2.vMatch =
        ((List.range vTxid.length).filter fun p => vMatch.getD p false).map
          (fun p => vTxid.getD p Uint256.zero) ∧
      (extractMatches hash t' vnIndex).2.vnIndex =
        vnIndex ++ (List.range vTxid.length).filter (fun p => vMatch.getD p false) ∧
      (extractMatches hash t' vnIndex).2.fBad = false := by
  have h0 : 0 < vTxid.length := List.length_pos_iff.mpr hv
  have hmax' : vTxid.length ≤ 16666 := hmax
  obtain ⟨hbound, hle, htop, hnode⟩ := node_treeHeight hash h0 hmax
  obtain ⟨bits, hashes, x, hx, hbuild, hhb, hbl, hhl, hext⟩ :=
    traverseAndBuild_spec hash vMatch hv hd _ 0 ⟨vTxid.length, [], [], false⟩ rfl hbound
      (by simpa using h0)
  obtain rfl : x = (computeMerkleRoot hash vTxid).1 :=
    Option.some_injective _ (hx.symm.trans hnode)
  rw [leavesUnder_top hle, List.length_range] at hhl
  have hbits : bits.length < 2 * (2 * vTxid.length) := by
    rw [pow_succ] at hbl
    omega
  have hbuild' : build hash vTxid vMatch = .ok ⟨vTxid.length, bits, hashes, false⟩ := by
    rw [build, Nat.mod_eq_of_lt (by omega)]
    simpa using hbuild
  set pad := List.replicate ((bits.length + 7) / 8 * 8 - bits.length) false
  refine ⟨_, ⟨vTxid.length, bits ++ pad, hashes, false⟩, hbuild',
    reads_unserialize ⟨vTxid.length, bits, hashes, false⟩ (show vTxid.length < 2 ^ 32 by omega)
      (show hashes.length ≤ maxSize by simp only [maxSize]; omega)
      (show (bits.length + 7) / 8 ≤ maxSize by simp only [maxSize]; omega), ?_⟩
  have hr := hext ⟨vTxid.length, bits ++ pad, hashes, false⟩ ⟨0, 0, [], vnIndex, false⟩ pad []
    rfl (by rw [List.drop_zero]) (by rw [List.drop_zero, List.append_nil])
  have hpad : pad.length = (bits.length + 7) / 8 * 8 - bits.length := List.length_replicate
  rw [extractMatches_eq_of_traverse hash h0 hmax hhl
    (show hashes.length ≤ (bits ++ pad).length by rw [List.length_append]; omega) hr rfl
    (show (0 + bits.length + 7) / 8 = ((bits ++ pad).length + 7) / 8 by
      rw [Nat.zero_add, List.length_append, hpad]; omega) (Nat.zero_add _),
    matchedUnder, leavesUnder_top hle]
  exact ⟨rfl, rfl, rfl, rfl⟩

end roundTrip

end CPartialMerkleTree

/-! ## `gettxoutproof` and `verifytxoutproof` -/

section filtered

open Primitives CPartialMerkleTree

variable (hash : Uint256 → Uint256 → Uint256) (getHash : CTransaction → Uint256)

/-- The txids at the positions whose flag is set are the txids of the flagged elements.
Source: none: infrastructure
Kind: L -/
theorem map_getD_filter_range {α β : Type} (f : α → Bool) (g : α → β) (d : β) :
    ∀ l : List α, ((List.range l.length).filter fun p => (l.map f).getD p false).map
      (fun p => (l.map g).getD p d) = (l.filter f).map g
  | [] => rfl
  | a :: l => by
    have ih := map_getD_filter_range f g d l
    rw [List.length_cons, List.range_succ_eq_map, List.filter_cons, List.filter_map]
    cases hfa : f a <;> simp [hfa, Function.comp_def, List.map_map, ← ih]

/-- The loop of the `CMerkleBlock` constructor, over transactions whose classes read: each is
flagged when its hash is asked for or it is a stake transaction, and the stake transactions not
asked for are recorded with their positions.
Source: `src/merkleblock.cpp` `CMerkleBlock::CMerkleBlock`
Kind: L -/
theorem foldlM_matchTx (txids : List Uint256) :
    ∀ (vtx : List CTransaction) (k : Nat) (s : MatchState),
      (∀ tx ∈ vtx, ∃ c, Stake.parseTxClass tx.outputs = .ok c) →
      (vtx.zipIdx k).foldlM (fun s p => CMerkleBlock.matchTx getHash txids s p.2 p.1) s =
        .ok ⟨s.vMatch ++ vtx.map (fun tx => txids.contains (getHash tx) ||
                decide (Stake.isStakeTx tx.outputs = .ok true)),
          s.vHashes ++ vtx.map getHash,
          s.vMatchedTxn ++ ((vtx.zipIdx k).filter fun p => !txids.contains (getHash p.1) &&
                decide (Stake.isStakeTx p.1.outputs = .ok true)).map fun p => (p.2, getHash p.1)⟩
  | [], _, s, _ => by simp
  | tx :: vtx, k, s, hclass => by
    obtain ⟨c, hc⟩ := hclass tx List.mem_cons_self
    have hstake : Stake.isStakeTx tx.outputs = .ok c.isStakeTx := by
      rw [Stake.isStakeTx, hc]
      rfl
    have hrest := foldlM_matchTx txids vtx (k + 1)
    rw [List.zipIdx_cons, List.foldlM_cons, CMerkleBlock.matchTx]
    -- the three ways the transaction is flagged: asked for, a stake transaction, neither
    by_cases hask : txids.contains (getHash tx) = true
    · have hmem : getHash tx ∈ txids := by simpa using hask
      rw [if_pos hask, except_ok_bind, hrest _ fun t ht => hclass t (List.mem_cons_of_mem _ ht)]
      simp [hmem]
    · have hmem : getHash tx ∉ txids := by simpa using hask
      rw [if_neg hask, hstake, except_ok_bind]
      cases hs : c.isStakeTx
      · rw [if_neg (by simp), except_ok_bind,
          hrest _ fun t ht => hclass t (List.mem_cons_of_mem _ ht)]
        simp [hmem, hstake, hs]
      · rw [if_pos rfl, except_ok_bind, hrest _ fun t ht => hclass t (List.mem_cons_of_mem _ ht)]
        simp [hmem, hstake, hs]

/-- **`verifytxoutproof` accepts what `gettxoutproof` sends.** Take a block of
`1 ..= MAX_BLOCK_WEIGHT / MIN_TRANSACTION_WEIGHT` transactions that passes `CheckBlock`'s Merkle
check against its header, whose classes read (`ParseTxClass` does not throw) and whose Merkle
tree has no two equal sibling nodes, and any txids. The filtered block `CMerkleBlock(block,
txids)` is built; its partial Merkle tree, serialized and read back, gives
`ExtractMatches(vMatch, vIndex) == header.hashMerkleRoot`; and the txids it returns are those of
the block's transactions that were asked for or are stake transactions, in block order, with
their positions.
Source: `src/merkleblock.cpp` `CMerkleBlock::CMerkleBlock`, `CPartialMerkleTree::ExtractMatches`
Kind: P -/
theorem extractMatches_ofTxids (header : CBlockHeader) (vtx : List CTransaction)
    (txids : List Uint256)
    (hcheck : checkBlockMerkleRoot hash getHash header.hashMerkleRoot vtx = .ok ())
    (hv : vtx ≠ []) (hmax : vtx.length ≤ maxBlockWeight / minTransactionWeight)
    (hd : ¬ EqualSiblings hash (vtx.map getHash))
    (hclass : ∀ tx ∈ vtx, ∃ c, Stake.parseTxClass tx.outputs = .ok c) :
    ∃ mb txn, CMerkleBlock.ofTxids hash getHash header vtx txids = .ok mb ∧
      Reads unserialize (serialize mb.txn) txn ∧
      (extractMatches hash txn []).1 = header.hashMerkleRoot ∧
      (extractMatches hash txn []).2.vMatch =
        (vtx.filter fun tx => txids.contains (getHash tx) ||
          decide (Stake.isStakeTx tx.outputs = .ok true)).map getHash ∧
      (extractMatches hash txn []).2.vnIndex =
        (List.range vtx.length).filter fun i =>
          (vtx.map fun tx => txids.contains (getHash tx) ||
            decide (Stake.isStakeTx tx.outputs = .ok true)).getD i false := by
  obtain ⟨hroot, -⟩ := (checkBlockMerkleRoot_eq_ok_iff hash getHash _ vtx).mp hcheck
  have hs := foldlM_matchTx getHash txids vtx 0 ⟨[], [], []⟩ hclass
  obtain ⟨t, t', hbuild, hreads, hr, hm, hidx, -⟩ :=
    extractMatches_unserialize_build hash (vtx.map getHash)
      (vtx.map fun tx => txids.contains (getHash tx) ||
        decide (Stake.isStakeTx tx.outputs = .ok true)) []
      (by simpa using hv) (by simpa using hmax) hd
  obtain ⟨mb, hmb, rfl⟩ : ∃ mb, CMerkleBlock.ofTxids hash getHash header vtx txids = .ok mb ∧
      mb.txn = t := by
    rw [CMerkleBlock.ofTxids, hs, except_ok_bind]
    simp only [List.nil_append]
    rw [hbuild, except_ok_bind]
    exact ⟨_, rfl, rfl⟩
  refine ⟨mb, t', hmb, hreads, ?_, ?_, ?_⟩
  · rw [hr, hroot, blockMerkleRoot]
  · rw [hm, List.length_map, map_getD_filter_range]
  · rw [hidx, List.nil_append, List.length_map]

/-- A block of two transactions, the second asked for.
Source: `src/merkleblock.cpp` `CMerkleBlock::CMerkleBlock`
Kind: W -/
theorem extractMatches_ofTxids_two :
    ∃ mb txn, CMerkleBlock.ofTxids (fun a _ => a) (fun tx => Uint256.ofNat tx.nLockTime.toNat)
        ⟨0, Uint256.zero, Uint256.ofNat 1, 0, 0, 0, StakeFields.null, MsgId.zero, MsgId.zero⟩
        [lockTimeTx 1, lockTimeTx 2] [Uint256.ofNat 2] = .ok mb ∧
      Reads unserialize (serialize mb.txn) txn ∧
      (extractMatches (fun a _ => a) txn []).1 =
        (⟨0, Uint256.zero, Uint256.ofNat 1, 0, 0, 0, StakeFields.null, MsgId.zero, MsgId.zero⟩ :
          CBlockHeader).hashMerkleRoot ∧
      (extractMatches (fun a _ => a) txn []).2.vMatch =
        ([lockTimeTx 1, lockTimeTx 2].filter fun tx =>
          [Uint256.ofNat 2].contains (Uint256.ofNat tx.nLockTime.toNat) ||
            decide (Stake.isStakeTx tx.outputs = .ok true)).map
          (fun tx => Uint256.ofNat tx.nLockTime.toNat) ∧
      (extractMatches (fun a _ => a) txn []).2.vnIndex =
        (List.range [lockTimeTx 1, lockTimeTx 2].length).filter fun i =>
          ([lockTimeTx 1, lockTimeTx 2].map fun tx =>
            [Uint256.ofNat 2].contains (Uint256.ofNat tx.nLockTime.toNat) ||
              decide (Stake.isStakeTx tx.outputs = .ok true)).getD i false :=
  extractMatches_ofTxids _ _ _ _ _ (by decide) (by decide) (by decide)
    (not_equalSiblings_of_nodup (fun _ _ _ _ h => h) (by decide))
    (by
      intro tx htx
      simp only [List.mem_cons, List.not_mem_nil, or_false] at htx
      rcases htx with rfl | rfl <;> exact ⟨_, rfl⟩)

end filtered

end BwsCoin.MerkleBlock
