import Mathlib

/-!
# Merkle trees that pair an odd last node with itself

A Merkle tree over a list of leaves, built level by level: adjacent nodes are combined pairwise
and, when a level has an odd number of nodes, the last one is combined with itself (`pairUp`).
The root is the node left when a level has one (`root`); `node L j l` is the `j`-th node of
level `L`, the levels counted from the leaves. This module names no particular program.

* A node of level `L` is *complete* when all `2 ^ L` leaves under it are there. Complete nodes
  depend on their own leaves only: appending leaves keeps them (`node_append_of_le`), and the
  node is the top of its block of leaves (`node_drop`, `node_take_of_le`).
* `Mutated l` — two equal complete nodes side by side, at positions `2 i` and `2 i + 1` of a
  level.
* **Duplicating the last block.** When the leaves are an odd number `2 q + 1 ≥ 3` of blocks of
  `2 ^ k`, appending a copy of the last block keeps the root (`root_append_lastBlock`), and the
  longer list is `Mutated` (`mutated_append_lastBlock`).
* **One root, one depth.** Two lists of leaves of one depth with one root are equal, or the
  longer one is `Mutated`, or `combine` takes two different pairs that the two root
  computations combine to one value (`Collision`, `eq_or_mutated_of_root_eq`).

A collision is stated over the pairs a computation actually combines (`CombinesPair`), not
over all inputs of `combine`: any function from pairs to values of the same size has some
collision, but the statement asks for one among a few thousand given pairs.
-/

namespace MerkleTree

variable {α : Type} (combine : α → α → α)

/-- One level up: adjacent nodes combined pairwise, an odd last node combined with itself.
Source: none: infrastructure
Kind: D -/
def pairUp : List α → List α
  | [] => []
  | [a] => [combine a a]
  | a :: b :: l => combine a b :: pairUp l

/-- Source: none: infrastructure. Kind: L -/
theorem length_pairUp (l : List α) : (pairUp combine l).length = (l.length + 1) / 2 := by
  fun_induction pairUp combine l with
  | case1 => simp
  | case2 a => simp
  | case3 a b l ih =>
    simp only [List.length_cons, ih]
    omega

/-- The root: the one node of the first level that has one; `zero` for no leaves.
Source: none: infrastructure
Kind: D -/
def root (zero : α) : List α → α
  | [] => zero
  | [a] => a
  | a :: b :: l => root zero (pairUp combine (a :: b :: l))
termination_by l => l.length
decreasing_by
  simp only [length_pairUp, List.length_cons]
  omega

/-- The `j`-th node of level `L`.
Source: none: infrastructure
Kind: D -/
def node (L j : Nat) (l : List α) : Option α := ((pairUp combine)^[L] l)[j]?

/-- Two equal complete nodes side by side, at positions `2 i` and `2 i + 1` of level `L`.
Source: none: infrastructure
Kind: D -/
def Mutated (l : List α) : Prop :=
  ∃ L i a, (2 * i + 2) * 2 ^ L ≤ l.length ∧ node combine L (2 * i) l = some a ∧
    node combine L (2 * i + 1) l = some a

/-- Two equal nodes side by side, at positions `2 i` and `2 i + 1` of level `L`, complete or not.
Source: none: infrastructure
Kind: D -/
def EqualSiblings (l : List α) : Prop :=
  ∃ L i a, node combine L (2 * i) l = some a ∧ node combine L (2 * i + 1) l = some a

/-- Two different pairs, each satisfying `P`, that `combine` takes to one value.
Source: none: infrastructure
Kind: D -/
def CollidesOn (P : α × α → Prop) : Prop :=
  ∃ p q, P p ∧ P q ∧ p ≠ q ∧ combine p.1 p.2 = combine q.1 q.2

/-- A pair that the root computation over `l` combines: the nodes at `2 j` and `2 j + 1` of a
level with at least two nodes, the first twice when the second is missing.
Source: none: infrastructure
Kind: D -/
def CombinesPair (l : List α) (p : α × α) : Prop :=
  ∃ L j, 2 ^ L < l.length ∧ node combine L (2 * j) l = some p.1 ∧
    (node combine L (2 * j + 1) l).getD p.1 = p.2

/-- A collision among the pairs the root computations over `l₁` and over `l₂` combine.
Source: none: infrastructure
Kind: D -/
def Collision (l₁ l₂ : List α) : Prop :=
  CollidesOn combine fun p => CombinesPair combine l₁ p ∨ CombinesPair combine l₂ p

variable {combine} in
/-- Source: none: infrastructure. Kind: L -/
theorem CollidesOn.mono {P Q : α × α → Prop} (hPQ : ∀ p, P p → Q p) (h : CollidesOn combine P) :
    CollidesOn combine Q := by
  obtain ⟨p, q, hp, hq, hne, heq⟩ := h
  exact ⟨p, q, hPQ p hp, hPQ q hq, hne, heq⟩

/-- Source: none: infrastructure. Kind: L -/
theorem collision_comm {l₁ l₂ : List α} (h : Collision combine l₁ l₂) : Collision combine l₂ l₁ :=
  h.mono fun _ => Or.symm

/-! ## One level -/

/-- A prefix of even length pairs up on its own.
Source: none: infrastructure
Kind: L -/
theorem pairUp_append {A : List α} (hA : Even A.length) (B : List α) :
    pairUp combine (A ++ B) = pairUp combine A ++ pairUp combine B := by
  fun_induction pairUp combine A with
  | case1 => rfl
  | case2 a => simp at hA
  | case3 a b l ih =>
    have hl : Even l.length := by
      simpa [Nat.even_add_one] using hA
    simp only [List.cons_append, pairUp, ih hl]

/-- Source: none: infrastructure. Kind: L -/
theorem take_pairUp (l : List α) (k : Nat) :
    (pairUp combine l).take k = pairUp combine (l.take (2 * k)) := by
  fun_induction pairUp combine l generalizing k with
  | case1 => simp [pairUp]
  | case2 a =>
    cases k with
    | zero => simp [pairUp]
    | succ k => rw [Nat.mul_succ]; simp [pairUp]
  | case3 a b l ih =>
    cases k with
    | zero => simp [pairUp]
    | succ k => simp [pairUp, ih, Nat.mul_succ]

/-- Source: none: infrastructure. Kind: L -/
theorem drop_pairUp (l : List α) (k : Nat) :
    (pairUp combine l).drop k = pairUp combine (l.drop (2 * k)) := by
  fun_induction pairUp combine l generalizing k with
  | case1 => simp [pairUp]
  | case2 a =>
    cases k with
    | zero => simp [pairUp]
    | succ k => rw [Nat.mul_succ]; simp [pairUp]
  | case3 a b l ih =>
    cases k with
    | zero => simp [pairUp]
    | succ k => simp [ih, Nat.mul_succ]

/-! ## Levels -/

/-- Source: none: infrastructure. Kind: L -/
theorem take_iterate_pairUp (L : Nat) (l : List α) (k : Nat) :
    ((pairUp combine)^[L] l).take k = (pairUp combine)^[L] (l.take (k * 2 ^ L)) := by
  induction L generalizing l k with
  | zero => simp
  | succ L ih =>
    rw [Function.iterate_succ_apply, Function.iterate_succ_apply, ih, take_pairUp, pow_succ,
      show 2 * (k * 2 ^ L) = k * (2 ^ L * 2) by ring]

/-- Source: none: infrastructure. Kind: L -/
theorem drop_iterate_pairUp (L : Nat) (l : List α) (k : Nat) :
    ((pairUp combine)^[L] l).drop k = (pairUp combine)^[L] (l.drop (k * 2 ^ L)) := by
  induction L generalizing l k with
  | zero => simp
  | succ L ih =>
    rw [Function.iterate_succ_apply, Function.iterate_succ_apply, ih, drop_pairUp, pow_succ,
      show 2 * (k * 2 ^ L) = k * (2 ^ L * 2) by ring]

/-- A prefix whose length is a multiple of `2 ^ L` reaches level `L` on its own.
Source: none: infrastructure
Kind: L -/
theorem iterate_pairUp_append (L : Nat) {A : List α} (hA : 2 ^ L ∣ A.length) (B : List α) :
    (pairUp combine)^[L] (A ++ B) = (pairUp combine)^[L] A ++ (pairUp combine)^[L] B := by
  induction L generalizing A B with
  | zero => rfl
  | succ L ih =>
    obtain ⟨c, hc⟩ := hA
    have heven : Even A.length := ⟨2 ^ L * c, by rw [hc, pow_succ]; ring⟩
    have hdvd : 2 ^ L ∣ (pairUp combine A).length :=
      ⟨c, by rw [length_pairUp, hc, pow_succ, show 2 ^ L * 2 * c = 2 * (2 ^ L * c) by ring]; omega⟩
    rw [Function.iterate_succ_apply, Function.iterate_succ_apply, Function.iterate_succ_apply,
      pairUp_append combine heven, ih hdvd]

/-- Level `L` has a `j`-th node exactly when leaves start below it.
Source: none: infrastructure
Kind: L -/
theorem lt_length_iterate_pairUp {L j : Nat} {l : List α} :
    j < ((pairUp combine)^[L] l).length ↔ j * 2 ^ L < l.length := by
  induction L generalizing j with
  | zero => simp
  | succ L ih =>
    have h := @ih (2 * j)
    have hpow : j * 2 ^ (L + 1) = 2 * j * 2 ^ L := by ring
    rw [Function.iterate_succ_apply', length_pairUp, hpow]
    omega

/-! ## Nodes -/

/-- Source: none: infrastructure. Kind: L -/
@[simp] theorem node_zero (j : Nat) (l : List α) : node combine 0 j l = l[j]? := rfl

/-- Source: none: infrastructure. Kind: L -/
theorem node_isSome_iff {L j : Nat} {l : List α} :
    (node combine L j l).isSome ↔ j * 2 ^ L < l.length := by
  rw [node, Option.isSome_iff_ne_none, Ne, List.getElem?_eq_none_iff, not_le,
    lt_length_iterate_pairUp]

/-- Source: none: infrastructure. Kind: L -/
theorem node_eq_none_iff {L j : Nat} {l : List α} :
    node combine L j l = none ↔ l.length ≤ j * 2 ^ L := by
  rw [← Option.not_isSome_iff_eq_none, node_isSome_iff, not_lt]

/-- The node from the leaves at and after position `i * 2 ^ L`.
Source: none: infrastructure
Kind: L -/
theorem node_drop (L i j : Nat) (l : List α) :
    node combine L j (l.drop (i * 2 ^ L)) = node combine L (i + j) l := by
  rw [node, node, ← drop_iterate_pairUp, List.getElem?_drop]

/-- Source: none: infrastructure. Kind: L -/
theorem drop_of_getElem? {X : List α} {n : Nat} {a : α} (h : X[n]? = some a) :
    X.drop n = a :: X.drop (n + 1) := by
  obtain ⟨hn, rfl⟩ := List.getElem?_eq_some_iff.mp h
  exact List.drop_eq_getElem_cons hn

/-- The parent of the nodes at `2 j` and `2 j + 1`.
Source: none: infrastructure
Kind: L -/
theorem getElem?_pairUp (X : List α) (j : Nat) :
    (pairUp combine X)[j]? = (pairUp combine (X.drop (2 * j)))[0]? := by
  rw [← drop_pairUp, List.getElem?_drop, Nat.add_zero]

/-- Source: none: infrastructure. Kind: L -/
theorem node_succ_of_some {L j : Nat} {l : List α} {a b : α}
    (ha : node combine L (2 * j) l = some a) (hb : node combine L (2 * j + 1) l = some b) :
    node combine (L + 1) j l = some (combine a b) := by
  unfold node at ha hb ⊢
  rw [Function.iterate_succ_apply', getElem?_pairUp, drop_of_getElem? ha,
    drop_of_getElem? hb]
  simp [pairUp]

/-- Source: none: infrastructure. Kind: L -/
theorem node_succ_of_none {L j : Nat} {l : List α} {a : α}
    (ha : node combine L (2 * j) l = some a) (hb : node combine L (2 * j + 1) l = none) :
    node combine (L + 1) j l = some (combine a a) := by
  unfold node at ha hb ⊢
  rw [Function.iterate_succ_apply', getElem?_pairUp, drop_of_getElem? ha,
    List.drop_eq_nil_iff.mpr (List.getElem?_eq_none_iff.mp hb)]
  simp [pairUp]

/-- A node of level `L + 1` is the node at `2 j` combined with the node at `2 j + 1`, or with
itself when level `L` ends before `2 j + 1`.
Source: none: infrastructure
Kind: L -/
theorem node_succ_cases {L j : Nat} {l : List α} {x : α} (h : node combine (L + 1) j l = some x) :
    ∃ a, node combine L (2 * j) l = some a ∧
      ((∃ b, node combine L (2 * j + 1) l = some b ∧ x = combine a b) ∨
        (node combine L (2 * j + 1) l = none ∧ x = combine a a)) := by
  have hlen : 2 * j * 2 ^ L < l.length := by
    have hx := (node_isSome_iff combine).mp (Option.isSome_iff_exists.mpr ⟨x, h⟩)
    rwa [show j * 2 ^ (L + 1) = 2 * j * 2 ^ L by ring] at hx
  obtain ⟨a, ha⟩ := Option.isSome_iff_exists.mp ((node_isSome_iff combine).mpr hlen)
  refine ⟨a, ha, ?_⟩
  rcases hb : node combine L (2 * j + 1) l with _ | b
  · rw [node_succ_of_none combine ha hb] at h
    exact .inr ⟨rfl, (Option.some_injective _ h).symm⟩
  · rw [node_succ_of_some combine ha hb] at h
    exact .inl ⟨b, rfl, (Option.some_injective _ h).symm⟩

/-- A complete node keeps its value when leaves are appended.
Source: none: infrastructure
Kind: L -/
theorem node_append_of_le {L j : Nat} {A : List α} (B : List α) (h : (j + 1) * 2 ^ L ≤ A.length) :
    node combine L j (A ++ B) = node combine L j A := by
  unfold node
  rw [← List.getElem?_take_of_lt (Nat.lt_succ_self j), take_iterate_pairUp,
    List.take_append_of_le_length h, ← take_iterate_pairUp, List.getElem?_take_of_lt]
  exact Nat.lt_succ_self j

/-- A complete node is the node of any prefix that holds its leaves.
Source: none: infrastructure
Kind: L -/
theorem node_take_of_le {L j n : Nat} {l : List α} (h : (j + 1) * 2 ^ L ≤ n) :
    node combine L j (l.take n) = node combine L j l := by
  rcases Nat.le_total n l.length with hn | hn
  · conv_rhs => rw [← List.take_append_drop n l]
    rw [node_append_of_le combine _ (by rw [List.length_take_of_le hn]; exact h)]
  · rw [List.take_of_length_le hn]

/-- Level `L` of a multiple of `2 ^ (L + 1)` leaves has twice as many nodes as level `L + 1`.
Source: none: infrastructure
Kind: L -/
theorem two_pow_succ_mul_div (L c : Nat) : 2 ^ (L + 1) * c / 2 ^ L = 2 * c := by
  rw [pow_succ, mul_comm (2 ^ L) 2, mul_assoc, mul_comm 2 (2 ^ L * c), mul_assoc,
    Nat.mul_div_cancel_left _ (Nat.two_pow_pos L)]
  ring

/-- **Appending a leaf** adds the pairs that end at the new leaf: at each level `L` with
`2 ^ (L + 1) ∣ l.length + 1`, the last two nodes.
Source: none: infrastructure
Kind: L -/
theorem mutated_append_singleton_iff {l : List α} {x : α} :
    Mutated combine (l ++ [x]) ↔ Mutated combine l ∨
      ∃ L, 2 ^ (L + 1) ∣ l.length + 1 ∧
        node combine L ((l.length + 1) / 2 ^ L - 2) (l ++ [x]) =
          node combine L ((l.length + 1) / 2 ^ L - 1) (l ++ [x]) := by
  have hpow : ∀ L, 0 < 2 ^ L := Nat.two_pow_pos
  constructor
  · rintro ⟨L, i, a, hle, h₁, h₂⟩
    rw [List.length_append, List.length_singleton] at hle
    by_cases hold : (2 * i + 2) * 2 ^ L ≤ l.length
    · -- a pair of the old leaves
      refine .inl ⟨L, i, a, hold, ?_, ?_⟩
      · rwa [node_append_of_le combine _ (by nlinarith [hpow L])] at h₁
      · rwa [node_append_of_le combine _ (by nlinarith [hpow L])] at h₂
    · -- the pair that ends at the new leaf
      have hend : (2 * i + 2) * 2 ^ L = l.length + 1 := by omega
      have hc : l.length + 1 = 2 ^ (L + 1) * (i + 1) := by rw [← hend]; ring
      refine .inr ⟨L, ⟨i + 1, hc⟩, ?_⟩
      rw [hc, two_pow_succ_mul_div, show 2 * (i + 1) - 2 = 2 * i by omega,
        show 2 * (i + 1) - 1 = 2 * i + 1 by omega, h₁, h₂]
  · rintro (⟨L, i, a, hle, h₁, h₂⟩ | ⟨L, ⟨c, hc⟩, heq⟩)
    · refine ⟨L, i, a, by simp; omega, ?_, ?_⟩
      · rwa [node_append_of_le combine _ (by nlinarith [hpow L])]
      · rwa [node_append_of_le combine _ (by nlinarith [hpow L])]
    · have hc0 : 0 < c := by
        rcases Nat.eq_zero_or_pos c with rfl | hc0
        · simp at hc
        · exact hc0
      rw [hc, two_pow_succ_mul_div] at heq
      obtain ⟨a, ha⟩ := Option.isSome_iff_exists.mp
        ((node_isSome_iff combine (L := L) (j := 2 * c - 1) (l := l ++ [x])).mpr (by
          rw [List.length_append, List.length_singleton, hc, pow_succ]
          have : (2 * c - 1) * 2 ^ L + 2 ^ L = 2 ^ L * 2 * c := by
            rw [← Nat.succ_mul, Nat.succ_eq_add_one, Nat.sub_add_cancel (by omega)]; ring
          have := hpow L
          omega))
      refine ⟨L, c - 1, a, ?_, ?_, ?_⟩
      · rw [List.length_append, List.length_singleton, hc, pow_succ,
          show 2 * (c - 1) + 2 = 2 * c by omega]
        apply le_of_eq
        ring
      · rw [show 2 * (c - 1) = 2 * c - 2 by omega, heq, ha]
      · rwa [show 2 * (c - 1) + 1 = 2 * c - 1 by omega]

/-! ## The root -/

section root

variable (zero : α)

/-- Source: none: infrastructure. Kind: L -/
theorem root_pairUp {l : List α} (h : 2 ≤ l.length) :
    root combine zero (pairUp combine l) = root combine zero l := by
  match l, h with
  | a :: b :: l, _ => rw [root]

/-- Above level `L` one node is left only once `2 ^ L` leaves are exceeded.
Source: none: infrastructure
Kind: L -/
theorem root_iterate_pairUp {L : Nat} {l : List α} (h : 2 ^ L < l.length) :
    root combine zero ((pairUp combine)^[L + 1] l) = root combine zero l := by
  induction L generalizing l with
  | zero => exact root_pairUp combine zero (by simp only [pow_zero] at h; omega)
  | succ L ih =>
    have hlen : 2 ^ L < (pairUp combine l).length := by
      rw [length_pairUp, pow_succ] at *
      omega
    have htwo : 2 ≤ l.length := by
      have : 1 ≤ 2 ^ L := Nat.one_le_two_pow
      rw [pow_succ] at h
      omega
    rw [Function.iterate_succ_apply, ih hlen, root_pairUp combine zero htwo]

/-- The root of leaves of depth `d` is the first node of level `d`.
Source: none: infrastructure
Kind: L -/
theorem node_eq_root {d : Nat} {l : List α} (h₀ : 0 < l.length) (h₁ : l.length ≤ 2 ^ d)
    (h₂ : 2 ^ d < 2 * l.length) : node combine d 0 l = some (root combine zero l) := by
  cases d with
  | zero =>
    obtain ⟨a, rfl⟩ := List.length_eq_one_iff.mp (show l.length = 1 by
      simp only [pow_zero] at h₁; omega)
    simp [root]
  | succ L =>
    have hL : 2 ^ L < l.length := by rw [pow_succ] at h₂; omega
    -- level `L + 1` has one node
    have hone : ((pairUp combine)^[L + 1] l).length = 1 := by
      have hpos := (@lt_length_iterate_pairUp _ combine (L + 1) 0 l).mpr (by simpa using h₀)
      have hnot : ¬ 1 < ((pairUp combine)^[L + 1] l).length := by
        rw [lt_length_iterate_pairUp]
        omega
      omega
    obtain ⟨x, hx⟩ := List.length_eq_one_iff.mp hone
    rw [node, ← root_iterate_pairUp combine zero hL, hx]
    simp [root]

end root

/-! ## Duplicating the last block -/

section lastBlock

variable {k q : Nat} {v : List α}

/-- The last block of `2 ^ k` leaves reaches level `k` as the last node of `v` there.
Source: none: infrastructure
Kind: L -/
theorem iterate_pairUp_lastBlock (hv : v.length = 2 ^ k * (2 * q + 1)) :
    (pairUp combine)^[k] (v.drop (v.length - 2 ^ k)) =
      ((pairUp combine)^[k] v).drop (2 * q) := by
  have hlast : v.length - 2 ^ k = 2 * q * 2 ^ k := by
    rw [hv]
    have : 2 ^ k * (2 * q + 1) = 2 * q * 2 ^ k + 2 ^ k := by ring
    omega
  rw [hlast, drop_iterate_pairUp]

/-- Source: none: infrastructure. Kind: L -/
theorem length_iterate_pairUp_of_blocks (hv : v.length = 2 ^ k * (2 * q + 1)) :
    ((pairUp combine)^[k] v).length = 2 * q + 1 := by
  have hlt := (@lt_length_iterate_pairUp _ combine k (2 * q) v).mpr (by
    rw [hv]; have : 0 < 2 ^ k := Nat.two_pow_pos k; nlinarith)
  have hnot : ¬ 2 * q + 1 < ((pairUp combine)^[k] v).length := by
    rw [lt_length_iterate_pairUp, hv, mul_comm]
    exact lt_irrefl _
  omega

/-- After the copy of the last block, the nodes of level `k` at `2 q` and `2 q + 1` are both the
last node of `v` there.
Source: none: infrastructure
Kind: L -/
theorem node_append_lastBlock (hv : v.length = 2 ^ k * (2 * q + 1)) :
    node combine k (2 * q) (v ++ v.drop (v.length - 2 ^ k)) = node combine k (2 * q) v ∧
      node combine k (2 * q + 1) (v ++ v.drop (v.length - 2 ^ k)) = node combine k (2 * q) v := by
  have hlast : v.length - 2 ^ k = 2 * q * 2 ^ k := by
    rw [hv]
    have : 2 ^ k * (2 * q + 1) = 2 * q * 2 ^ k + 2 ^ k := by ring
    omega
  have hcomplete : (2 * q + 1) * 2 ^ k ≤ v.length := by rw [hv, mul_comm]
  refine ⟨node_append_of_le combine _ hcomplete, ?_⟩
  -- the node after the last one of `v` is the top of the copy
  have hdrop : (v ++ v.drop (v.length - 2 ^ k)).drop ((2 * q + 1) * 2 ^ k) =
      v.drop (2 * q * 2 ^ k) := by
    rw [List.drop_append_of_le_length hcomplete, List.drop_of_length_le (by rw [hv, mul_comm]),
      List.nil_append, hlast]
  have h := node_drop combine k (2 * q + 1) 0 (v ++ v.drop (v.length - 2 ^ k))
  rw [hdrop, node_drop, Nat.add_zero, Nat.add_zero] at h
  exact h.symm

/-- **Duplicating the last block keeps the root.** At level `k` the copy is one more node equal
to the last one; the odd last node is paired with itself anyway.
Source: none: infrastructure
Kind: L -/
theorem root_append_lastBlock (zero : α) (hv : v.length = 2 ^ k * (2 * q + 1)) (hq : 0 < q) :
    root combine zero (v ++ v.drop (v.length - 2 ^ k)) = root combine zero v := by
  set P := (pairUp combine)^[k] v with hP
  have hlenP : P.length = 2 * q + 1 := length_iterate_pairUp_of_blocks combine hv
  obtain ⟨z, hz⟩ : ∃ z, P.drop (2 * q) = [z] :=
    List.length_eq_one_iff.mp (by rw [List.length_drop, hlenP]; omega)
  have hsplit : P = P.take (2 * q) ++ [z] := by rw [← hz, List.take_append_drop]
  have heven : Even (P.take (2 * q)).length := ⟨q, by rw [List.length_take, hlenP]; omega⟩
  have hlevel : (pairUp combine)^[k] (v ++ v.drop (v.length - 2 ^ k)) =
      P.take (2 * q) ++ [z] ++ [z] := by
    rw [iterate_pairUp_append combine k ⟨2 * q + 1, hv⟩, iterate_pairUp_lastBlock combine hv,
      ← hP, hz, ← hsplit]
  -- `z` with its copy pairs up as `z` with itself
  have hpair : pairUp combine (P.take (2 * q) ++ [z] ++ [z]) = pairUp combine P := by
    conv_rhs => rw [hsplit]
    rw [List.append_assoc, pairUp_append combine heven, pairUp_append combine heven]
    rfl
  have hpos : 2 ^ k < v.length := by
    rw [hv]
    have : 0 < 2 ^ k := Nat.two_pow_pos k
    nlinarith
  have hpos' : 2 ^ k < (v ++ v.drop (v.length - 2 ^ k)).length := by
    rw [List.length_append]
    omega
  rw [← root_iterate_pairUp combine zero hpos', Function.iterate_succ_apply', hlevel, hpair,
    hP, ← Function.iterate_succ_apply' (pairUp combine) k v,
    root_iterate_pairUp combine zero hpos]

/-- **The duplicated block is a pair of equal complete nodes** at level `k`.
Source: none: infrastructure
Kind: L -/
theorem mutated_append_lastBlock (hv : v.length = 2 ^ k * (2 * q + 1)) :
    Mutated combine (v ++ v.drop (v.length - 2 ^ k)) := by
  obtain ⟨z, hz⟩ := Option.isSome_iff_exists.mp
    ((node_isSome_iff combine (L := k) (j := 2 * q) (l := v)).mpr (by
      rw [hv]
      have := Nat.two_pow_pos k
      nlinarith))
  obtain ⟨hleft, hright⟩ := node_append_lastBlock combine hv
  refine ⟨k, q, z, ?_, by rw [hleft, hz], by rw [hright, hz]⟩
  have hlast : v.length - 2 ^ k = 2 * q * 2 ^ k := by
    rw [hv]
    have : 2 ^ k * (2 * q + 1) = 2 * q * 2 ^ k + 2 ^ k := by ring
    omega
  rw [List.length_append, List.length_drop, hlast, hv]
  apply le_of_eq
  have : 2 ^ k * (2 * q + 1) = 2 * q * 2 ^ k + 2 ^ k := by ring
  rw [this, Nat.add_sub_cancel_left]
  ring

end lastBlock

/-! ## One root, one depth -/

/-- A `Mutated` prefix makes the whole list `Mutated`.
Source: none: infrastructure
Kind: L -/
theorem mutated_of_mutated_take {l : List α} (n : Nat) (h : Mutated combine (l.take n)) :
    Mutated combine l := by
  obtain ⟨L, i, a, hle, h₁, h₂⟩ := h
  have hn : (2 * i + 2) * 2 ^ L ≤ n := hle.trans (List.length_take_le _ _)
  refine ⟨L, i, a, hle.trans (List.length_take_le' _ _), ?_, ?_⟩
  · rwa [node_take_of_le combine (by nlinarith)] at h₁
  · rwa [node_take_of_le combine (by nlinarith)] at h₂

/-- A `Mutated` second half makes the whole list `Mutated`: at a level below `k` the half starts
at an even node.
Source: none: infrastructure
Kind: L -/
theorem mutated_of_mutated_drop {k : Nat} {l : List α} (hl : l.length ≤ 2 ^ (k + 1))
    (h : Mutated combine (l.drop (2 ^ k))) : Mutated combine l := by
  obtain ⟨L, i, a, hle, h₁, h₂⟩ := h
  have hpowL : 0 < 2 ^ L := Nat.two_pow_pos L
  -- the pair is below level `k`
  have hLk : L + 1 ≤ k := by
    have hle' : 2 ^ (L + 1) ≤ 2 ^ k := by
      rw [List.length_drop] at hle
      rw [pow_succ] at hl ⊢
      have : 2 ^ L * 2 ≤ (2 * i + 2) * 2 ^ L := by nlinarith
      omega
    exact (Nat.pow_le_pow_iff_right (by norm_num)).mp hle'
  obtain ⟨e, rfl⟩ := Nat.exists_eq_add_of_le hLk
  have hoff : 2 ^ (L + 1 + e) = 2 ^ e * 2 * 2 ^ L := by ring
  rw [hoff, node_drop] at h₁ h₂
  refine ⟨L, 2 ^ e + i, a, ?_, ?_, ?_⟩
  · rw [List.length_drop, hoff] at hle
    have : (2 * (2 ^ e + i) + 2) * 2 ^ L = 2 ^ e * 2 * 2 ^ L + (2 * i + 2) * 2 ^ L := by ring
    have : 0 < (2 * i + 2) * 2 ^ L := by positivity
    omega
  · rwa [show 2 * (2 ^ e + i) = 2 ^ e * 2 + 2 * i by ring]
  · rwa [show 2 * (2 ^ e + i) + 1 = 2 ^ e * 2 + (2 * i + 1) by ring]

/-- The first node of level `k` of a nonempty list of at most `2 ^ (k + 1)` leaves, from the
first two nodes of level `k`.
Source: none: infrastructure
Kind: L -/
theorem node_succ_zero {k : Nat} {B : List α} (h₀ : 0 < B.length) :
    ∃ x, node combine k 0 B = some x ∧
      node combine (k + 1) 0 B = some (combine x ((node combine k 1 B).getD x)) := by
  obtain ⟨x, hx⟩ := Option.isSome_iff_exists.mp
    ((node_isSome_iff combine (L := k) (j := 0) (l := B)).mpr (by simpa using h₀))
  refine ⟨x, hx, ?_⟩
  rcases hy : node combine k 1 B with _ | y
  · exact node_succ_of_none combine hx hy
  · exact node_succ_of_some combine hx hy

/-- A pair of a level below `K`, complete or not: within a block of at most `2 ^ K` leaves, the
pairs the computation of the block's top node combines.
Source: none: infrastructure
Kind: D -/
def PairBelow (K : Nat) (l : List α) (p : α × α) : Prop :=
  ∃ L j, L < K ∧ node combine L (2 * j) l = some p.1 ∧ (node combine L (2 * j + 1) l).getD p.1 = p.2

/-- Below level `k`, a pair of nodes that starts inside the first `2 ^ k` leaves ends there.
Source: none: infrastructure
Kind: L -/
theorem pair_end_le {L k j : Nat} (hL : L < k) (h : 2 * j * 2 ^ L < 2 ^ k) :
    (2 * j + 2) * 2 ^ L ≤ 2 ^ k := by
  obtain ⟨e, rfl⟩ := Nat.exists_eq_add_of_lt hL
  have hpow : 2 ^ (L + e + 1) = 2 ^ e * 2 * 2 ^ L := by ring
  rw [hpow] at h ⊢
  have hj : j < 2 ^ e := by
    have h' : j * (2 * 2 ^ L) < 2 ^ e * (2 * 2 ^ L) := by nlinarith
    exact Nat.lt_of_mul_lt_mul_right h'
  nlinarith

/-- A pair of the first `2 ^ k` leaves is a pair of the whole block.
Source: none: infrastructure
Kind: L -/
theorem pairBelow_take {k : Nat} {B : List α} {p : α × α} (h : PairBelow combine k (B.take (2 ^ k)) p) :
    PairBelow combine (k + 1) B p := by
  obtain ⟨L, j, hL, h₁, h₂⟩ := h
  have hlt : 2 * j * 2 ^ L < 2 ^ k := by
    have := (node_isSome_iff combine).mp (Option.isSome_iff_exists.mpr ⟨_, h₁⟩)
    exact lt_of_lt_of_le this (List.length_take_le _ _)
  have hend := pair_end_le hL hlt
  refine ⟨L, j, by omega, ?_, ?_⟩
  · rwa [node_take_of_le combine (by nlinarith)] at h₁
  · rwa [node_take_of_le combine hend] at h₂

/-- A pair of the leaves after the first `2 ^ k` is a pair of the whole block: below level `k`
the second half starts at an even node.
Source: none: infrastructure
Kind: L -/
theorem pairBelow_drop {k : Nat} {B : List α} {p : α × α} (h : PairBelow combine k (B.drop (2 ^ k)) p) :
    PairBelow combine (k + 1) B p := by
  obtain ⟨L, j, hL, h₁, h₂⟩ := h
  obtain ⟨e, rfl⟩ := Nat.exists_eq_add_of_lt hL
  have hoff : 2 ^ (L + e + 1) = 2 ^ e * 2 * 2 ^ L := by ring
  rw [hoff, node_drop] at h₁ h₂
  refine ⟨L, 2 ^ e + j, by omega, ?_, ?_⟩
  · rwa [show 2 * (2 ^ e + j) = 2 ^ e * 2 + 2 * j by ring]
  · rwa [show 2 * (2 ^ e + j) + 1 = 2 ^ e * 2 + (2 * j + 1) by ring]

/-- The top pair of a block of at most `2 ^ (k + 1)` leaves: the first two nodes of level `k`.
Source: none: infrastructure
Kind: L -/
theorem pairBelow_top {k : Nat} {B : List α} {x : α} (h : node combine k 0 B = some x) :
    PairBelow combine (k + 1) B (x, (node combine k 1 B).getD x) :=
  ⟨k, 0, Nat.lt_succ_self k, h, rfl⟩

/-- Below the top level of leaves of depth `d`, every level has two nodes: the pairs of the
block are pairs the root computation combines.
Source: none: infrastructure
Kind: L -/
theorem combinesPair_of_pairBelow {d : Nat} {l : List α} {p : α × α} (hd : 2 ^ d < 2 * l.length)
    (h : PairBelow combine d l p) : CombinesPair combine l p := by
  obtain ⟨L, j, hL, h₁, h₂⟩ := h
  refine ⟨L, j, ?_, h₁, h₂⟩
  obtain ⟨e, rfl⟩ := Nat.exists_eq_add_of_lt hL
  have hpow : 2 ^ (L + e + 1) = 2 ^ L * 2 ^ e * 2 := by ring
  have : 2 ^ L ≤ 2 ^ L * 2 ^ e := Nat.le_mul_of_pos_right _ (Nat.two_pow_pos e)
  omega

/-- **Same top, same depth.** Two blocks of at most `2 ^ k` leaves whose first nodes of level
`k` agree are equal, or the longer is `Mutated`, or `combine` takes two different pairs of the
blocks' levels below `k` to one value.
Source: none: infrastructure
Kind: L -/
theorem eq_or_mutated_of_node_eq (k : Nat) {B₁ B₂ : List α} (h₀ : 0 < B₁.length)
    (h₁₂ : B₁.length ≤ B₂.length) (h₂ : B₂.length ≤ 2 ^ k)
    (h : node combine k 0 B₁ = node combine k 0 B₂) :
    B₁ = B₂ ∨ Mutated combine B₂ ∨
      CollidesOn combine fun p => PairBelow combine k B₁ p ∨ PairBelow combine k B₂ p := by
  induction k generalizing B₁ B₂ with
  | zero =>
    obtain ⟨a, rfl⟩ := List.length_eq_one_iff.mp (show B₁.length = 1 by
      simp only [pow_zero] at h₂; omega)
    obtain ⟨b, rfl⟩ := List.length_eq_one_iff.mp (show B₂.length = 1 by
      simp only [List.length_singleton, pow_zero] at h₂ h₁₂; omega)
    simp_all
  | succ k ih =>
    have hpow : 0 < 2 ^ k := Nat.two_pow_pos k
    rw [pow_succ] at h₂
    obtain ⟨x₁, hx₁, htop₁⟩ := node_succ_zero combine (k := k) h₀
    obtain ⟨x₂, hx₂, htop₂⟩ := node_succ_zero combine (k := k) (B := B₂) (by omega)
    rw [htop₁, htop₂, Option.some.injEq] at h
    -- the two top pairs differ: a collision at the top
    by_cases htop : (x₁, (node combine k 1 B₁).getD x₁) = (x₂, (node combine k 1 B₂).getD x₂)
    swap
    · exact .inr (.inr ⟨_, _, .inl (pairBelow_top combine hx₁), .inr (pairBelow_top combine hx₂),
        htop, h⟩)
    obtain ⟨hx, hy⟩ := Prod.mk.inj htop
    -- the first halves and the second halves, as blocks of level `k`
    have htake : ∀ B : List α, node combine k 0 (B.take (2 ^ k)) = node combine k 0 B :=
      fun B => node_take_of_le combine (by simp)
    have hdrop : ∀ B : List α, node combine k 0 (B.drop (2 ^ k)) = node combine k 1 B :=
      fun B => by simpa using node_drop combine k 1 0 B
    rcases Nat.lt_or_ge (2 ^ k) B₁.length with hB₁ | hB₁
    · -- both have a second half: the halves agree pairwise
      obtain ⟨y₁, hy₁⟩ := Option.isSome_iff_exists.mp
        ((node_isSome_iff combine (L := k) (j := 1) (l := B₁)).mpr (by simpa using hB₁))
      obtain ⟨y₂, hy₂⟩ := Option.isSome_iff_exists.mp
        ((node_isSome_iff combine (L := k) (j := 1) (l := B₂)).mpr (by simp; omega))
      rw [hy₁, hy₂, Option.getD_some, Option.getD_some] at hy
      have hfirst := @ih (B₁.take (2 ^ k)) (B₂.take (2 ^ k)) (by simp; omega)
        (by simp; omega) (by simp) (by rw [htake, htake, hx₁, hx₂, hx])
      have hsecond := @ih (B₁.drop (2 ^ k)) (B₂.drop (2 ^ k)) (by simp; omega)
        (by simp; omega) (by simp; omega) (by rw [hdrop, hdrop, hy₁, hy₂, hy])
      rcases hfirst with hfirst | hfirst | hfirst
      · rcases hsecond with hsecond | hsecond | hsecond
        · left
          rw [← List.take_append_drop (2 ^ k) B₁, hfirst, hsecond, List.take_append_drop]
        · exact .inr (.inl (mutated_of_mutated_drop combine (by rw [pow_succ]; omega) hsecond))
        · exact .inr (.inr (hsecond.mono fun _ => Or.imp (pairBelow_drop combine)
            (pairBelow_drop combine)))
      · exact .inr (.inl (mutated_of_mutated_take combine _ hfirst))
      · exact .inr (.inr (hfirst.mono fun _ => Or.imp (pairBelow_take combine)
          (pairBelow_take combine)))
    · have hnone₁ : node combine k 1 B₁ = none := (node_eq_none_iff combine).mpr (by simpa)
      rw [hnone₁, Option.getD_none] at hy
      rcases Nat.lt_or_ge (2 ^ k) B₂.length with hB₂ | hB₂
      · -- only the longer has a second half, and its two halves have one top
        obtain ⟨y₂, hy₂⟩ := Option.isSome_iff_exists.mp
          ((node_isSome_iff combine (L := k) (j := 1) (l := B₂)).mpr (by simpa using hB₂))
        rw [hy₂, Option.getD_some] at hy
        have hhalves : x₂ = y₂ := hx.symm.trans hy
        rcases Nat.lt_or_ge B₂.length (2 ^ k * 2) with hshort | hfull
        · have hhalf := @ih (B₂.drop (2 ^ k)) (B₂.take (2 ^ k)) (by simp; omega)
            (by simp; omega) (by simp) (by rw [htake, hdrop, hx₂, hy₂, hhalves])
          rcases hhalf with hhalf | hhalf | hhalf
          · have := congrArg List.length hhalf
            simp at this
            omega
          · exact .inr (.inl (mutated_of_mutated_take combine _ hhalf))
          · -- both halves are of the longer block
            exact .inr (.inr (hhalf.mono fun _ hp => .inr (hp.elim (pairBelow_drop combine)
              (pairBelow_take combine))))
        · -- a full second half equal to the first: the two halves are a mutated pair
          exact .inr (.inl ⟨k, 0, x₂, by omega, hx₂, by rw [hy₂, hhalves]⟩)
      · have hnone₂ : node combine k 1 B₂ = none := (node_eq_none_iff combine).mpr (by simpa)
        rw [hnone₂, Option.getD_none] at hy
        rcases ih h₀ h₁₂ hB₂ (by rw [hx₁, hx₂, hx]) with heq | hm | hcol
        · exact .inl heq
        · exact .inr (.inl hm)
        · -- the blocks fit in their first halves
          refine .inr (.inr (hcol.mono fun _ => Or.imp (fun hp => ?_) (fun hp => ?_)))
          · rw [← List.take_of_length_le hB₁] at hp
            exact pairBelow_take combine hp
          · rw [← List.take_of_length_le hB₂] at hp
            exact pairBelow_take combine hp

/-- **One root, one depth.** Two lists of leaves of one depth `d` with one root are equal, or
the longer is `Mutated`, or `combine` takes two different pairs that the two root computations
combine to one value.
Source: none: infrastructure
Kind: L -/
theorem eq_or_mutated_of_root_eq (zero : α) {d : Nat} {l₁ l₂ : List α} (h₀ : 0 < l₁.length)
    (h₁₂ : l₁.length ≤ l₂.length) (h₂ : l₂.length ≤ 2 ^ d) (hd : 2 ^ d < 2 * l₁.length)
    (h : root combine zero l₁ = root combine zero l₂) :
    l₁ = l₂ ∨ Mutated combine l₂ ∨ Collision combine l₁ l₂ := by
  rcases eq_or_mutated_of_node_eq combine d h₀ h₁₂ h₂ (by
      rw [node_eq_root combine zero h₀ (h₁₂.trans h₂) (by omega),
        node_eq_root combine zero (by omega) h₂ (by omega), h]) with heq | hm | hcol
  · exact .inl heq
  · exact .inr (.inl hm)
  · exact .inr (.inr (hcol.mono fun _ => Or.imp (combinesPair_of_pairBelow combine hd)
      (combinesPair_of_pairBelow combine (by omega))))

/-! ## Distinct leaves -/

section distinct

/-- Each node of the next level starts with a node of this one.
Source: none: infrastructure
Kind: L -/
theorem exists_of_mem_pairUp {l : List α} {x : α} (h : x ∈ pairUp combine l) :
    ∃ a ∈ l, ∃ b, x = combine a b := by
  fun_induction pairUp combine l with
  | case1 => simp at h
  | case2 a =>
    rw [List.mem_singleton] at h
    exact ⟨a, List.mem_singleton_self a, a, h⟩
  | case3 a b l ih =>
    rcases List.mem_cons.mp h with rfl | h
    · exact ⟨a, List.mem_cons_self, b, rfl⟩
    · obtain ⟨c, hc, d, rfl⟩ := ih h
      exact ⟨c, List.mem_cons_of_mem _ (List.mem_cons_of_mem _ hc), d, rfl⟩

variable {combine} (hc : ∀ a b c d, combine a b = combine c d → a = c)
include hc

/-- With `combine` injective in its first argument, distinct nodes pair up into distinct nodes.
Source: none: infrastructure
Kind: L -/
theorem nodup_pairUp {l : List α} (hl : l.Nodup) : (pairUp combine l).Nodup := by
  fun_induction pairUp combine l with
  | case1 => exact List.nodup_nil
  | case2 a => exact List.nodup_singleton _
  | case3 a b l ih =>
    obtain ⟨ha, hb⟩ := List.nodup_cons.mp hl
    refine List.nodup_cons.mpr ⟨fun hmem => ?_, ih (List.nodup_cons.mp hb).2⟩
    obtain ⟨c, hcl, d, hcd⟩ := exists_of_mem_pairUp combine hmem
    rw [hc a b c d hcd] at ha
    exact ha (List.mem_cons_of_mem _ hcl)

/-- Source: none: infrastructure. Kind: L -/
theorem nodup_iterate_pairUp {l : List α} (hl : l.Nodup) (L : Nat) :
    ((pairUp combine)^[L] l).Nodup := by
  induction L with
  | zero => exact hl
  | succ L ih =>
    rw [Function.iterate_succ_apply']
    exact nodup_pairUp hc ih

/-- Distinct leaves, under a `combine` injective in its first argument, have no two equal
siblings: every level is free of duplicates.
Source: none: infrastructure
Kind: L -/
theorem not_equalSiblings_of_nodup {l : List α} (hl : l.Nodup) : ¬ EqualSiblings combine l := by
  rintro ⟨L, i, a, h₁, h₂⟩
  have hlevel := nodup_iterate_pairUp hc hl L
  unfold node at h₁ h₂
  have hlt : 2 * i + 1 < ((pairUp combine)^[L] l).length := (List.getElem?_eq_some_iff.mp h₂).1
  exact List.nodup_iff_getElem?_ne_getElem?.mp hlevel (2 * i) (2 * i + 1) (by omega) hlt
    (h₁.trans h₂.symm)

end distinct

end MerkleTree
