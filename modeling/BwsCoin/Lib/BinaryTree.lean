import Mathlib

/-!
# In-order traversal, search and heap order on `BinaryTree`

General facts about Mathlib's `BinaryTree α` that a persistent search tree keyed by a
projection `key : α → κ` uses; nothing here refers to a particular program.

* `inorder` — the in-order list of the payloads, with `length_inorder`.
* `search key k` — the descent by comparisons from the root; on a tree whose in-order keys
  increase strictly it finds exactly the payload with key `k` (`search_eq_find?`).
* `IsMinHeap p` — every payload's priority is at most every priority below it;
  `prunedInorder` (the in-order walk that does not descend below a node failing a predicate)
  equals the filtered in-order list on a heap when the predicate is downward closed
  (`prunedInorder_eq_filter`).
-/

namespace BinaryTree

variable {α κ β : Type*}

/-! ## In-order traversal -/

/-- The in-order list of the payloads.
Source: none: infrastructure
Kind: D -/
def inorder : BinaryTree α → List α
  | nil => []
  | node a l r => l.inorder ++ a :: r.inorder

/-- Source: none: infrastructure. Kind: L -/
@[simp] theorem inorder_nil : (nil : BinaryTree α).inorder = [] := rfl

/-- Source: none: infrastructure. Kind: L -/
@[simp] theorem inorder_node (a : α) (l r : BinaryTree α) :
    (node a l r).inorder = l.inorder ++ a :: r.inorder := rfl

/-- The in-order list has one entry per node.
Source: none: infrastructure
Kind: L -/
theorem length_inorder (t : BinaryTree α) : t.inorder.length = t.numNodes := by
  induction t with
  | nil => rfl
  | node a l r ihl ihr =>
    simp only [inorder_node, List.length_append, List.length_cons, ihl, ihr, numNodes]
    omega

/-! ## Search by key -/

section search

variable [LinearOrder κ] (key : α → κ)

/-- The descent from the root by comparing `k` with the key of each node.
Source: none: infrastructure
Kind: D -/
def search (k : κ) : BinaryTree α → Option α
  | nil => none
  | node a l r =>
    match compare k (key a) with
    | .lt => search k l
    | .gt => search k r
    | .eq => some a

/-- The in-order keys of `t` increase strictly.
Source: none: infrastructure
Kind: D -/
def KeySorted (t : BinaryTree α) : Prop := (t.inorder.map key).Pairwise (· < ·)

/-- Sortedness of a node splits into its two subtrees and the separation by the root key.
Source: none: infrastructure
Kind: L -/
theorem keySorted_node_iff {a : α} {l r : BinaryTree α} :
    KeySorted key (node a l r) ↔ KeySorted key l ∧ KeySorted key r ∧
      (∀ x ∈ l.inorder, key x < key a) ∧ (∀ x ∈ r.inorder, key a < key x) := by
  simp only [KeySorted, inorder_node, List.map_append, List.map_cons, List.pairwise_append,
    List.pairwise_cons, List.mem_map, List.mem_cons, forall_exists_index, and_imp,
    forall_apply_eq_imp_iff₂]
  constructor
  · rintro ⟨hl, ⟨har, hr⟩, hlr⟩
    refine ⟨hl, hr, fun x hx => hlr x hx _ (Or.inl rfl), har⟩
  · rintro ⟨hl, hr, hla, har⟩
    refine ⟨hl, ⟨har, hr⟩, fun x hx y hy => ?_⟩
    rcases hy with rfl | ⟨z, hz, rfl⟩
    · exact hla x hx
    · exact (hla x hx).trans (har z hz)

/-- On a key-sorted tree the descent finds the first (and only) payload with key `k`.
Source: none: infrastructure
Kind: L -/
theorem search_eq_find? {t : BinaryTree α} (hs : KeySorted key t) (k : κ) :
    t.search key k = t.inorder.find? (fun x => key x = k) := by
  induction t with
  | nil => rfl
  | node a l r ihl ihr =>
    obtain ⟨hl, hr, hla, har⟩ := (keySorted_node_iff key).1 hs
    simp only [search, inorder_node, List.find?_append, List.find?_cons]
    rcases lt_trichotomy k (key a) with hk | hk | hk
    · -- `k` lies left of the root: nothing right of the root has key `k`
      have hr_none : r.inorder.find? (fun x => key x = k) = none :=
        List.find?_eq_none.2 (fun x hx => by simpa using ne_of_gt (hk.trans (har x hx)))
      rw [compare_lt_iff_lt.2 hk, ihl hl]
      cases l.inorder.find? (fun x => key x = k) with
      | none => simp [ne_of_gt hk, hr_none]
      | some y => rfl
    · -- the root carries `k`: no key left of it equals `k`
      subst hk
      have hl_none : l.inorder.find? (fun x => key x = key a) = none :=
        List.find?_eq_none.2 (fun x hx => by simpa using ne_of_lt (hla x hx))
      rw [compare_eq_iff_eq.2 rfl, hl_none]
      simp
    · -- `k` lies right of the root: no key left of it or at it equals `k`
      have hl_none : l.inorder.find? (fun x => key x = k) = none :=
        List.find?_eq_none.2 (fun x hx => by simpa using ne_of_lt ((hla x hx).trans hk))
      have hak : decide (key a = k) = false := by simpa using ne_of_lt hk
      rw [compare_gt_iff_gt.2 hk, ihr hr, hl_none]
      simp [hak]

end search

/-! ## Heap order and the pruned walk -/

section heap

variable [Preorder β] (p : α → β)

/-- Every payload's priority is at most the priority of every payload below it.
Source: none: infrastructure
Kind: D -/
def IsMinHeap : BinaryTree α → Prop
  | nil => True
  | node a l r => (∀ x ∈ l.inorder, p a ≤ p x) ∧ (∀ x ∈ r.inorder, p a ≤ p x) ∧
      IsMinHeap l ∧ IsMinHeap r

/-- The in-order walk that does not descend below a node failing `keep`.
Source: none: infrastructure
Kind: D -/
def prunedInorder (keep : α → Bool) : BinaryTree α → List α
  | nil => []
  | node a l r => if keep a then prunedInorder keep l ++ a :: prunedInorder keep r else []

/-- On a heap, pruning at the first node whose priority reaches `h` visits exactly the
payloads of priority below `h`, in order: a node at or above `h` has only such nodes below it.
Source: none: infrastructure
Kind: L -/
theorem prunedInorder_eq_filter [DecidableLT β] {t : BinaryTree α} (ht : IsMinHeap p t) (h : β) :
    t.prunedInorder (fun x => decide (p x < h)) = t.inorder.filter (fun x => decide (p x < h)) := by
  induction t with
  | nil => rfl
  | node a l r ihl ihr =>
    obtain ⟨hl, hr, hhl, hhr⟩ := ht
    simp only [prunedInorder, inorder_node, List.filter_append, List.filter_cons]
    by_cases ha : p a < h
    · simp [ha, ihl hhl, ihr hhr]
    · -- every priority below the root is at least the root's, hence not below `h`
      have hnot : ∀ x ∈ l.inorder ++ r.inorder, ¬ p x < h := fun x hx hx' =>
        ha (lt_of_le_of_lt (by
          rcases List.mem_append.1 hx with hx | hx
          · exact hl x hx
          · exact hr x hx) hx')
      simp only [ha, decide_false, Bool.false_eq_true, if_false]
      rw [List.filter_eq_nil_iff.2 (fun x hx => by simpa using hnot x (List.mem_append_left _ hx)),
        List.filter_eq_nil_iff.2 (fun x hx => by simpa using hnot x (List.mem_append_right _ hx))]
      rfl

end heap

end BinaryTree
