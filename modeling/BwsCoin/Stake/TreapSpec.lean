import BwsCoin.Stake.Treap
import BwsCoin.Lib.SortedKV

/-!
# The ticket treap is a finite map

The abstraction of a treap is its in-order list of entries `(key, value)` (`entries`). On a
well-formed treap (`TicketTreap.WF`: keys increase in order, priorities form a min-heap,
every `size` field counts its subtree, `count` counts the nodes and `totalSize` is
`count * sizeof(TreapNode)`):

* `entries_put` — `put` acts on the entries as `SortedKV.insert`;
* `entries_deleteKey` — `deleteKey` acts as `SortedKV.erase`;
* `wf_put`, `wf_deleteKey` — both keep the invariant, so every treap built from
  `TicketTreap()` by these operations is well formed (`WF.empty`);
* `get_put`, `get_deleteKey` — the finite-map laws for `get`, read off the two above.

The descent lemmas are proved by induction on the tree following `putAux`, `deleteAux` and
`sinkDelete`; the rotations of `bubbleLeft`, `bubbleRight` and `sinkDelete` keep the in-order
list, which is why the entries come out right whatever the priorities are.
-/

namespace BwsCoin.Stake

open BinaryTree TicketTreap

/-- The entry a node contributes to the abstract map.
Source: none: infrastructure
Kind: D -/
def TreapNode.entry (d : TreapNode) : Uint256 × Value := (d.key, d.value)

/-- The heap priority of a node as a number.
Source: none: infrastructure
Kind: D -/
def TreapNode.prio (d : TreapNode) : Nat := d.priority.toNat

/-- The in-order entries of a tree.
Source: none: infrastructure
Kind: D -/
def entries (t : BinaryTree TreapNode) : List (Uint256 × Value) := t.inorder.map TreapNode.entry

/-- Source: none: infrastructure. Kind: L -/
@[simp] theorem entries_nil : entries (nil : BinaryTree TreapNode) = [] := rfl

/-- Source: none: infrastructure. Kind: L -/
@[simp] theorem entries_node (d : TreapNode) (l r : BinaryTree TreapNode) :
    entries (node d l r) = entries l ++ d.entry :: entries r := by
  simp [entries]

/-- Every `size` field is the number of nodes of its subtree.
Source: `src/stake/treap/treapnode.h` `TreapNode::size` ("Count of items within this treap")
Kind: D -/
def SizeOK : BinaryTree TreapNode → Prop
  | nil => True
  | node d l r => d.size = l.numNodes + r.numNodes + 1 ∧ SizeOK l ∧ SizeOK r

/-- The shape invariant of a treap's node graph: a search tree on keys, a min-heap on
priorities, with correct sizes.
Source: `src/stake/treap/tickettreap.h` (class comment)
Kind: D -/
structure WFTree (t : BinaryTree TreapNode) : Prop where
  /-- Keys increase strictly in order. -/
  sorted : KeySorted TreapNode.key t
  /-- Every node's priority is at most every priority below it. -/
  heap : IsMinHeap TreapNode.prio t
  /-- Every `size` field counts its subtree. -/
  sizes : SizeOK t

/-- The invariant of a treap: its node graph is well formed and its counters agree with it.
Source: `src/stake/treap/tickettreap.h` `TicketTreap`
Kind: D -/
structure TicketTreap.WF (t : TicketTreap) : Prop where
  /-- The node graph is well formed. -/
  tree : WFTree t.root
  /-- `count` is the number of nodes. -/
  count_eq : t.count = t.root.numNodes
  /-- `totalSize` is `count * sizeof(TreapNode)`. -/
  totalSize_eq : t.totalSize = t.count * sizeofTreapNode

/-! ## Basic facts -/

/-- The keys of the entries are the keys of the nodes.
Source: none: infrastructure
Kind: L -/
theorem keys_entries (t : BinaryTree TreapNode) :
    (entries t).map Prod.fst = t.inorder.map TreapNode.key := by
  simp [entries, TreapNode.entry, Function.comp_def]

/-- A tree is key-sorted exactly when its entries are.
Source: none: infrastructure
Kind: L -/
theorem keySorted_iff_sorted {t : BinaryTree TreapNode} :
    KeySorted TreapNode.key t ↔ SortedKV.Sorted (entries t) := by
  rw [KeySorted, SortedKV.Sorted, keys_entries]

/-- An entry of the tree comes from a node.
Source: none: infrastructure
Kind: L -/
theorem mem_entries {t : BinaryTree TreapNode} {e : Uint256 × Value} :
    e ∈ entries t ↔ ∃ d ∈ t.inorder, d.entry = e := by
  simp [entries]

/-- With correct sizes the root's `size` field is the node count.
Source: none: infrastructure
Kind: L -/
theorem subtreeSize_eq {t : BinaryTree TreapNode} (h : SizeOK t) : subtreeSize t = t.numNodes := by
  cases t with
  | nil => rfl
  | node d l r => simp only [subtreeSize, numNodes]; rw [h.1]

/-- The first node of the in-order list carrying a key is found by `List.find?` exactly when
the entries list has that key.
Source: none: infrastructure
Kind: L -/
theorem find?_entries (l : List TreapNode) (k : Uint256) :
    (l.find? fun d => d.key = k).map TreapNode.value = SortedKV.find? k (l.map TreapNode.entry) := by
  induction l with
  | nil => rfl
  | cons d l ih =>
    rw [List.map_cons, List.find?_cons]
    by_cases h : d.key = k
    · subst h; simp [TreapNode.entry, SortedKV.find?_cons]
    · simp [h, TreapNode.entry, SortedKV.find?_cons, Ne.symm h, ih]

/-- On a sorted tree `get` is the lookup in the entries.
Source: none: infrastructure
Kind: L -/
theorem TicketTreap.get_eq_find? {t : TicketTreap} (hs : KeySorted TreapNode.key t.root)
    (k : Uint256) : t.get k = SortedKV.find? k (entries t.root) := by
  rw [TicketTreap.get, TicketTreap.getNode, search_eq_find? _ hs, entries]
  exact find?_entries _ k

/-- `has` tells whether `get` finds a value.
Source: none: infrastructure
Kind: L -/
theorem TicketTreap.has_eq_isSome_get (t : TicketTreap) (k : Uint256) :
    t.has k = (t.get k).isSome := by
  simp [TicketTreap.has, TicketTreap.get]

/-! ## `put` on the entries -/

/-- The subtree a step of `put` returns.
Source: none: infrastructure
Kind: D -/
def TicketTreap.PutResult.tree : PutResult → BinaryTree TreapNode
  | .replaced t => t
  | .inserted t _ => t

/-- A rotation turn of `put` keeps the in-order entries.
Source: none: infrastructure
Kind: L -/
theorem entries_bubbleLeft (p : TreapNode) (l' r : BinaryTree TreapNode) (rising : Bool) :
    entries (bubbleLeft p l' r rising).tree = entries l' ++ p.entry :: entries r := by
  cases rising with
  | false => simp [bubbleLeft, PutResult.tree]
  | true =>
    cases l' with
    | nil => simp [bubbleLeft, PutResult.tree]
    | node n nl nr =>
      simp only [bubbleLeft]
      split_ifs <;> simp [PutResult.tree, TreapNode.entry]

/-- Source: none: infrastructure. Kind: L -/
theorem entries_bubbleRight (p : TreapNode) (l r' : BinaryTree TreapNode) (rising : Bool) :
    entries (bubbleRight p l r' rising).tree = entries l ++ p.entry :: entries r' := by
  cases rising with
  | false => simp [bubbleRight, PutResult.tree]
  | true =>
    cases r' with
    | nil => simp [bubbleRight, PutResult.tree]
    | node n nl nr =>
      simp only [bubbleRight]
      split_ifs <;> simp [PutResult.tree, TreapNode.entry]

/-- `put`'s descent inserts into the in-order entries.
Source: none: infrastructure
Kind: L -/
theorem entries_putAux (key : Uint256) (value : Value) {t : BinaryTree TreapNode}
    (hs : KeySorted TreapNode.key t) :
    entries (putAux key value t).tree = SortedKV.insert key value (entries t) := by
  induction t with
  | nil => simp [putAux, PutResult.tree, TreapNode.entry, SortedKV.insert]
  | node d l r ihl ihr =>
    obtain ⟨hl, hr, hla, har⟩ := (keySorted_node_iff _).1 hs
    have hlk : ∀ a ∈ entries l, a.1 < d.key := fun a ha => by
      obtain ⟨x, hx, rfl⟩ := mem_entries.1 ha
      exact hla x hx
    rcases lt_trichotomy key d.key with hk | hk | hk
    · -- the key goes left of `d`
      have hins : SortedKV.insert key value (entries (node d l r)) =
          SortedKV.insert key value (entries l) ++ d.entry :: entries r := by
        rw [entries_node]; exact SortedKV.insert_append_cons_of_lt hk
      rw [hins, ← ihl hl]
      simp only [putAux, compare_lt_iff_lt.2 hk]
      cases putAux key value l with
      | replaced l' => simp [PutResult.tree]
      | inserted l' rising => rw [entries_bubbleLeft]; rfl
    · -- the key is `d`'s: its value is replaced
      subst hk
      have hins : SortedKV.insert d.key value (entries (node d l r)) =
          entries l ++ (d.key, value) :: entries r := by
        rw [entries_node]; exact SortedKV.insert_append_cons_self hlk d.value
      rw [hins]
      simp [putAux, PutResult.tree, TreapNode.entry]
    · -- the key goes right of `d`
      have hins : SortedKV.insert key value (entries (node d l r)) =
          entries l ++ d.entry :: SortedKV.insert key value (entries r) := by
        rw [entries_node]
        exact SortedKV.insert_append_cons_of_gt (fun a ha => (hlk a ha).trans hk) hk
      rw [hins, ← ihr hr]
      simp only [putAux, compare_gt_iff_gt.2 hk]
      cases putAux key value r with
      | replaced r' => simp [PutResult.tree]
      | inserted r' rising => rw [entries_bubbleRight]; rfl

/-- The subtree `put`'s descent returns is key-sorted.
Source: none: infrastructure
Kind: L -/
theorem keySorted_putAux (key : Uint256) (value : Value) {t : BinaryTree TreapNode}
    (hs : KeySorted TreapNode.key t) : KeySorted TreapNode.key (putAux key value t).tree := by
  rw [keySorted_iff_sorted, entries_putAux key value hs]
  exact SortedKV.sorted_insert (keySorted_iff_sorted.1 hs) key value

/-! ## `put` keeps the sizes -/

/-- Whether a step of `put` linked in a new node.
Source: none: infrastructure
Kind: D -/
def TicketTreap.PutResult.added : PutResult → Nat
  | .replaced _ => 0
  | .inserted _ _ => 1

/-- Whether the rotation loop is still running.
Source: none: infrastructure
Kind: D -/
def TicketTreap.PutResult.rising : PutResult → Bool
  | .replaced _ => false
  | .inserted _ b => b

/-- A rotation turn below a parent whose size already counts the new node keeps every size
field right.
Source: none: infrastructure
Kind: L -/
theorem sizeOK_bubbleLeft {p : TreapNode} {l' r : BinaryTree TreapNode} (rising : Bool)
    (hl' : SizeOK l') (hr : SizeOK r) (hp : p.size = l'.numNodes + r.numNodes + 1) :
    SizeOK (bubbleLeft p l' r rising).tree ∧
      (bubbleLeft p l' r rising).tree.numNodes = l'.numNodes + r.numNodes + 1 ∧
      (bubbleLeft p l' r rising).added = 1 := by
  have hstay : SizeOK (node p l' r) := ⟨hp, hl', hr⟩
  cases rising with
  | false => exact ⟨hstay, rfl, rfl⟩
  | true =>
    cases l' with
    | nil => exact ⟨hstay, rfl, rfl⟩
    | node n nl nr =>
      obtain ⟨hn, hnl, hnr⟩ := hl'
      simp only [bubbleLeft]
      split_ifs
      · exact ⟨hstay, rfl, rfl⟩
      · -- the right rotation: `n` takes `p`'s place with `p` as its right child
        have hsr := subtreeSize_eq hr
        have hsnl := subtreeSize_eq hnl
        simp only [numNodes, PutResult.tree] at hp hn ⊢
        refine ⟨⟨?_, hnl, ?_, hnr, hr⟩, ?_, rfl⟩
        · simp only [numNodes]; omega
        · simp only; omega
        · omega

/-- Source: none: infrastructure. Kind: L -/
theorem sizeOK_bubbleRight {p : TreapNode} {l r' : BinaryTree TreapNode} (rising : Bool)
    (hl : SizeOK l) (hr' : SizeOK r') (hp : p.size = l.numNodes + r'.numNodes + 1) :
    SizeOK (bubbleRight p l r' rising).tree ∧
      (bubbleRight p l r' rising).tree.numNodes = l.numNodes + r'.numNodes + 1 ∧
      (bubbleRight p l r' rising).added = 1 := by
  have hstay : SizeOK (node p l r') := ⟨hp, hl, hr'⟩
  cases rising with
  | false => exact ⟨hstay, rfl, rfl⟩
  | true =>
    cases r' with
    | nil => exact ⟨hstay, rfl, rfl⟩
    | node n nl nr =>
      obtain ⟨hn, hnl, hnr⟩ := hr'
      simp only [bubbleRight]
      split_ifs
      · exact ⟨hstay, rfl, rfl⟩
      · -- the left rotation: `n` takes `p`'s place with `p` as its left child
        have hsl := subtreeSize_eq hl
        have hsnr := subtreeSize_eq hnr
        simp only [numNodes, PutResult.tree] at hp hn ⊢
        refine ⟨⟨?_, ⟨?_, hl, hnl⟩, hnr⟩, ?_, rfl⟩
        · simp only [numNodes]; omega
        · simp only; omega
        · omega

/-- `put`'s descent keeps every size field right and adds one node exactly when it inserts.
Source: none: infrastructure
Kind: L -/
theorem sizeOK_putAux (key : Uint256) (value : Value) {t : BinaryTree TreapNode} (h : SizeOK t) :
    SizeOK (putAux key value t).tree ∧
      (putAux key value t).tree.numNodes = t.numNodes + (putAux key value t).added := by
  induction t with
  | nil => exact ⟨⟨rfl, trivial, trivial⟩, rfl⟩
  | node d l r ihl ihr =>
    obtain ⟨hd, hl, hr⟩ := h
    rcases lt_trichotomy key d.key with hk | hk | hk
    · simp only [putAux, compare_lt_iff_lt.2 hk]
      obtain ⟨hl', hn⟩ := ihl hl
      cases hput : putAux key value l with
      | replaced l' =>
        rw [hput] at hl' hn
        simp only [PutResult.tree, PutResult.added] at hl' hn ⊢
        exact ⟨⟨by rw [hd, hn]; omega, hl', hr⟩, by simp only [numNodes]; omega⟩
      | inserted l' rising =>
        rw [hput] at hl' hn
        simp only [PutResult.tree, PutResult.added] at hl' hn
        obtain ⟨hb, hbn, hba⟩ := sizeOK_bubbleLeft (p := { d with size := d.size + 1 }) rising hl' hr
          (by simp only; omega)
        exact ⟨hb, by rw [hbn, hba]; simp only [numNodes]; omega⟩
    · subst hk
      simp only [putAux, compare_eq_iff_eq.2 rfl, PutResult.tree, PutResult.added]
      exact ⟨⟨hd, hl, hr⟩, rfl⟩
    · simp only [putAux, compare_gt_iff_gt.2 hk]
      obtain ⟨hr', hn⟩ := ihr hr
      cases hput : putAux key value r with
      | replaced r' =>
        rw [hput] at hr' hn
        simp only [PutResult.tree, PutResult.added] at hr' hn ⊢
        exact ⟨⟨by rw [hd, hn]; omega, hl, hr'⟩, by simp only [numNodes]; omega⟩
      | inserted r' rising =>
        rw [hput] at hr' hn
        simp only [PutResult.tree, PutResult.added] at hr' hn
        obtain ⟨hb, hbn, hba⟩ := sizeOK_bubbleRight (p := { d with size := d.size + 1 }) rising hl hr'
          (by simp only; omega)
        exact ⟨hb, by rw [hbn, hba]; simp only [numNodes]; omega⟩

/-! ## `put` keeps the heap -/

/-- A heap's root priority bounds every priority in it.
Source: none: infrastructure
Kind: L -/
theorem prio_root_le {d : TreapNode} {l r : BinaryTree TreapNode}
    (h : IsMinHeap TreapNode.prio (node d l r)) : ∀ x ∈ (node d l r).inorder, d.prio ≤ x.prio := by
  intro x hx
  rw [inorder_node, List.mem_append, List.mem_cons] at hx
  rcases hx with hx | rfl | hx
  · exact h.1 x hx
  · exact le_rfl
  · exact h.2.1 x hx

/-- What the rotation loop guarantees of the subtree `t'` that `put` builds from `t` by
linking in a node of key `key` and priority `prio`: it is a heap, each of its nodes is the new
one or has the priority of a node of `t`, while rising the new node is its root, and once the
loop has stopped its root has the priority of a node of `t`.
Source: `src/stake/treap/tickettreap.cpp` `TicketTreap::put` (rotation loop)
Kind: D -/
structure InsertedHeap (key : Uint256) (prio : Nat) (t t' : BinaryTree TreapNode) (rising : Bool) :
    Prop where
  /-- The result is a heap. -/
  heap : IsMinHeap TreapNode.prio t'
  /-- Every node is the new one or carries an old priority. -/
  origin : ∀ x ∈ t'.inorder, x.key = key ∨ ∃ y ∈ t.inorder, y.prio = x.prio
  /-- While rising, the new node is the root. -/
  top : rising = true → ∃ n nl nr, t' = node n nl nr ∧ n.key = key ∧ n.prio = prio
  /-- Once stopped, the root carries an old priority. -/
  kept : rising = false → ∃ n nl nr, t' = node n nl nr ∧ ∃ y ∈ t.inorder, y.prio = n.prio

/-- The heap property `put` keeps for each outcome of its descent.
Source: none: infrastructure
Kind: D -/
def PutHeap (key : Uint256) (prio : Nat) (t : BinaryTree TreapNode) : PutResult → Prop
  | .replaced t' => IsMinHeap TreapNode.prio t' ∧ ∀ x ∈ t'.inorder, ∃ y ∈ t.inorder, y.prio = x.prio
  | .inserted t' rising => InsertedHeap key prio t t' rising

/-- A rotation turn always reports an insertion.
Source: none: infrastructure
Kind: L -/
theorem bubbleLeft_eq_inserted (p : TreapNode) (l' r : BinaryTree TreapNode) (rising : Bool) :
    bubbleLeft p l' r rising =
      .inserted (bubbleLeft p l' r rising).tree (bubbleLeft p l' r rising).rising := by
  cases rising <;> cases l' <;> simp only [bubbleLeft] <;> (try split_ifs) <;> rfl

/-- Source: none: infrastructure. Kind: L -/
theorem bubbleRight_eq_inserted (p : TreapNode) (l r' : BinaryTree TreapNode) (rising : Bool) :
    bubbleRight p l r' rising =
      .inserted (bubbleRight p l r' rising).tree (bubbleRight p l r' rising).rising := by
  cases rising <;> cases r' <;> simp only [bubbleRight] <;> (try split_ifs) <;> rfl

section bubble

variable {key : Uint256} {prio : Nat} {d : TreapNode} {s : Nat} {l r l' r' : BinaryTree TreapNode}
  {rising : Bool}

/-- A rotation turn on the left keeps the heap, given the heap facts of the parent `d` (now
with size `s`) and of the subtree returned below it.
Source: none: infrastructure
Kind: L -/
theorem heap_bubbleLeft (hsl' : KeySorted TreapNode.key l')
    (hdl : ∀ x ∈ l.inorder, d.prio ≤ x.prio) (hdr : ∀ x ∈ r.inorder, d.prio ≤ x.prio)
    (hr : IsMinHeap TreapNode.prio r) (hl' : InsertedHeap key prio l l' rising) :
    InsertedHeap key prio (node d l r) (bubbleLeft { d with size := s } l' r rising).tree
      (bubbleLeft { d with size := s } l' r rising).rising := by
  -- the parent keeps `d`'s priority, and everything in the old tree is bounded by it
  have hpd : ({ d with size := s } : TreapNode).prio = d.prio := rfl
  have hold : ∀ x ∈ l.inorder ++ r.inorder, ∃ y ∈ (node d l r).inorder, y.prio = x.prio :=
    fun x hx => ⟨x, by simp only [inorder_node, List.mem_append, List.mem_cons] at hx ⊢; tauto, rfl⟩
  -- staying put: `node d' l' r`
  have hstay (hbound : ∀ x ∈ l'.inorder, d.prio ≤ x.prio) :
      InsertedHeap key prio (node d l r) (node { d with size := s } l' r) false := by
    refine ⟨⟨fun x hx => hbound x hx, hdr, hl'.heap, hr⟩, ?_, by simp, fun _ => ?_⟩
    · intro x hx
      rw [inorder_node, List.mem_append, List.mem_cons] at hx
      rcases hx with hx | rfl | hx
      · rcases hl'.origin x hx with h | ⟨y, hy, he⟩
        · exact Or.inl h
        · exact Or.inr ⟨y, by simp [hy], he⟩
      · exact Or.inr ⟨d, by simp, rfl⟩
      · exact Or.inr (hold x (List.mem_append_right _ hx))
    · exact ⟨_, _, _, rfl, d, by simp, rfl⟩
  cases rising with
  | false =>
    -- the loop has already stopped below: the root of `l'` carries an old priority
    obtain ⟨n, nl, nr, rfl, y, hy, he⟩ := hl'.kept rfl
    exact hstay fun x hx => (hdl y hy).trans (he ▸ prio_root_le hl'.heap x hx)
  | true =>
    obtain ⟨n, nl, nr, rfl, hnk, hnp⟩ := hl'.top rfl
    obtain ⟨hnl, hnr, hhnl, hhnr⟩ := hl'.heap
    simp only [bubbleLeft]
    split_ifs with hge
    · -- the new node is not below its parent: the loop stops here
      have hge' : d.prio ≤ n.prio := UInt32.le_iff_toNat_le.1 hge
      exact hstay fun x hx => hge'.trans (prio_root_le hl'.heap x hx)
    · -- the right rotation lifts the new node `n` above `d`
      have hlt : n.prio < d.prio := by
        rw [ge_iff_le, UInt32.le_iff_toNat_le] at hge
        exact Nat.lt_of_not_le hge
      obtain ⟨-, -, -, hnr_gt⟩ := (keySorted_node_iff _).1 hsl'
      -- a node right of `n` is old, hence bounded by `d`
      have hnr_old : ∀ x ∈ nr.inorder, d.prio ≤ x.prio := by
        intro x hx
        rcases hl'.origin x (by simp [hx]) with h | ⟨y, hy, he⟩
        · exact absurd (hnk ▸ h) (ne_of_gt (hnr_gt x hx))
        · exact he ▸ hdl y hy
      have hup : ∀ x : TreapNode, (x.key = key ∨ ∃ y ∈ l.inorder, y.prio = x.prio) →
          x.key = key ∨ ∃ y ∈ (node d l r).inorder, y.prio = x.prio := by
        rintro x (h | ⟨y, hy, he⟩)
        · exact Or.inl h
        · exact Or.inr ⟨y, by simp [hy], he⟩
      refine ⟨⟨hnl, ?_, hhnl, ⟨hnr_old, hdr, hhnr, hr⟩⟩, ?_, ?_,
        fun h => by simp [PutResult.rising] at h⟩
      · intro x hx
        simp only [inorder_node, List.mem_append, List.mem_cons] at hx
        rcases hx with hx | rfl | hx
        · exact hnr x hx
        · exact hlt.le
        · exact hlt.le.trans (hdr x hx)
      · intro x hx
        simp only [PutResult.tree, inorder_node, List.mem_append, List.mem_cons] at hx
        rcases hx with hx | rfl | (hx | rfl | hx)
        · exact hup x (hl'.origin x (by simp [hx]))
        · exact Or.inl hnk
        · exact hup x (hl'.origin x (by simp [hx]))
        · exact Or.inr ⟨d, by simp, rfl⟩
        · exact Or.inr (hold x (List.mem_append_right _ hx))
      · intro _
        exact ⟨_, nl, _, rfl, hnk, hnp⟩

/-- The mirror image of `heap_bubbleLeft`.
Source: none: infrastructure
Kind: L -/
theorem heap_bubbleRight (hsr' : KeySorted TreapNode.key r')
    (hdl : ∀ x ∈ l.inorder, d.prio ≤ x.prio) (hdr : ∀ x ∈ r.inorder, d.prio ≤ x.prio)
    (hl : IsMinHeap TreapNode.prio l) (hr' : InsertedHeap key prio r r' rising) :
    InsertedHeap key prio (node d l r) (bubbleRight { d with size := s } l r' rising).tree
      (bubbleRight { d with size := s } l r' rising).rising := by
  have hold : ∀ x ∈ l.inorder ++ r.inorder, ∃ y ∈ (node d l r).inorder, y.prio = x.prio :=
    fun x hx => ⟨x, by simp only [inorder_node, List.mem_append, List.mem_cons] at hx ⊢; tauto, rfl⟩
  have hstay (hbound : ∀ x ∈ r'.inorder, d.prio ≤ x.prio) :
      InsertedHeap key prio (node d l r) (node { d with size := s } l r') false := by
    refine ⟨⟨hdl, fun x hx => hbound x hx, hl, hr'.heap⟩, ?_, by simp, fun _ => ?_⟩
    · intro x hx
      rw [inorder_node, List.mem_append, List.mem_cons] at hx
      rcases hx with hx | rfl | hx
      · exact Or.inr (hold x (List.mem_append_left _ hx))
      · exact Or.inr ⟨d, by simp, rfl⟩
      · rcases hr'.origin x hx with h | ⟨y, hy, he⟩
        · exact Or.inl h
        · exact Or.inr ⟨y, by simp [hy], he⟩
    · exact ⟨_, _, _, rfl, d, by simp, rfl⟩
  cases rising with
  | false =>
    obtain ⟨n, nl, nr, rfl, y, hy, he⟩ := hr'.kept rfl
    exact hstay fun x hx => (hdr y hy).trans (he ▸ prio_root_le hr'.heap x hx)
  | true =>
    obtain ⟨n, nl, nr, rfl, hnk, hnp⟩ := hr'.top rfl
    obtain ⟨hnl, hnr, hhnl, hhnr⟩ := hr'.heap
    simp only [bubbleRight]
    split_ifs with hge
    · have hge' : d.prio ≤ n.prio := UInt32.le_iff_toNat_le.1 hge
      exact hstay fun x hx => hge'.trans (prio_root_le hr'.heap x hx)
    · -- the left rotation lifts the new node `n` above `d`
      have hlt : n.prio < d.prio := by
        rw [ge_iff_le, UInt32.le_iff_toNat_le] at hge
        exact Nat.lt_of_not_le hge
      obtain ⟨-, -, hnl_lt, -⟩ := (keySorted_node_iff _).1 hsr'
      have hnl_old : ∀ x ∈ nl.inorder, d.prio ≤ x.prio := by
        intro x hx
        rcases hr'.origin x (by simp [hx]) with h | ⟨y, hy, he⟩
        · exact absurd (hnk ▸ h) (ne_of_lt (hnl_lt x hx))
        · exact he ▸ hdr y hy
      have hup : ∀ x : TreapNode, (x.key = key ∨ ∃ y ∈ r.inorder, y.prio = x.prio) →
          x.key = key ∨ ∃ y ∈ (node d l r).inorder, y.prio = x.prio := by
        rintro x (h | ⟨y, hy, he⟩)
        · exact Or.inl h
        · exact Or.inr ⟨y, by simp [hy], he⟩
      refine ⟨⟨?_, hnr, ⟨hdl, hnl_old, hl, hhnl⟩, hhnr⟩, ?_, ?_,
        fun h => by simp [PutResult.rising] at h⟩
      · intro x hx
        simp only [inorder_node, List.mem_append, List.mem_cons] at hx
        rcases hx with hx | rfl | hx
        · exact hlt.le.trans (hdl x hx)
        · exact hlt.le
        · exact hnl x hx
      · intro x hx
        simp only [PutResult.tree, inorder_node, List.mem_append, List.mem_cons] at hx
        rcases hx with (hx | rfl | hx) | rfl | hx
        · exact Or.inr (hold x (List.mem_append_left _ hx))
        · exact Or.inr ⟨d, by simp, rfl⟩
        · exact hup x (hr'.origin x (by simp [hx]))
        · exact Or.inl hnk
        · exact hup x (hr'.origin x (by simp [hx]))
      · intro _
        exact ⟨_, _, nr, rfl, hnk, hnp⟩

end bubble

/-- `put`'s descent keeps the heap: the invariant `PutHeap` holds of its result.
Source: none: infrastructure
Kind: L -/
theorem putHeap_putAux (key : Uint256) (value : Value) {t : BinaryTree TreapNode}
    (hs : KeySorted TreapNode.key t) (hh : IsMinHeap TreapNode.prio t) :
    PutHeap key value.height.toNat t (putAux key value t) := by
  induction t with
  | nil =>
    refine ⟨⟨fun _ h => by simp at h, fun _ h => by simp at h, trivial, trivial⟩, ?_, ?_, by simp⟩
    · intro x hx; simp at hx; exact Or.inl (hx ▸ rfl)
    · intro _; exact ⟨_, _, _, rfl, rfl, rfl⟩
  | node d l r ihl ihr =>
    obtain ⟨hl, hr, -, -⟩ := (keySorted_node_iff _).1 hs
    obtain ⟨hdl, hdr, hhl, hhr⟩ := hh
    -- an untouched side and the root keep their old priorities
    have hsame (l' r' : BinaryTree TreapNode) (hl' : ∀ x ∈ l'.inorder, ∃ y ∈ l.inorder, y.prio = x.prio)
        (hr' : ∀ x ∈ r'.inorder, ∃ y ∈ r.inorder, y.prio = x.prio) (d' : TreapNode) (hd' : d'.prio = d.prio) :
        ∀ x ∈ (node d' l' r').inorder, ∃ y ∈ (node d l r).inorder, y.prio = x.prio := by
      intro x hx
      rw [inorder_node, List.mem_append, List.mem_cons] at hx
      rcases hx with hx | rfl | hx
      · obtain ⟨y, hy, he⟩ := hl' x hx; exact ⟨y, by simp [hy], he⟩
      · exact ⟨d, by simp, hd'.symm⟩
      · obtain ⟨y, hy, he⟩ := hr' x hx; exact ⟨y, by simp [hy], he⟩
    have hrefl (t : BinaryTree TreapNode) : ∀ x ∈ t.inorder, ∃ y ∈ t.inorder, y.prio = x.prio :=
      fun x hx => ⟨x, hx, rfl⟩
    rcases lt_trichotomy key d.key with hk | hk | hk
    · have ih := ihl hl hhl
      have hsl' := keySorted_putAux key value hl
      simp only [putAux, compare_lt_iff_lt.2 hk]
      cases hput : putAux key value l with
      | replaced l' =>
        rw [hput] at ih hsl'
        obtain ⟨hh', ho⟩ := ih
        refine ⟨⟨fun x hx => ?_, hdr, hh', hhr⟩, hsame l' r ho (hrefl r) d rfl⟩
        obtain ⟨y, hy, he⟩ := ho x hx
        exact he ▸ hdl y hy
      | inserted l' rising =>
        rw [hput] at ih hsl'
        dsimp only
        rw [bubbleLeft_eq_inserted]
        exact heap_bubbleLeft hsl' hdl hdr hhr ih
    · subst hk
      simp only [putAux, compare_eq_iff_eq.2 rfl]
      exact ⟨⟨hdl, hdr, hhl, hhr⟩, hsame l r (hrefl l) (hrefl r) _ rfl⟩
    · have ih := ihr hr hhr
      have hsr' := keySorted_putAux key value hr
      simp only [putAux, compare_gt_iff_gt.2 hk]
      cases hput : putAux key value r with
      | replaced r' =>
        rw [hput] at ih hsr'
        obtain ⟨hh', ho⟩ := ih
        refine ⟨⟨hdl, fun x hx => ?_, hhl, hh'⟩, hsame l r' (hrefl l) ho d rfl⟩
        obtain ⟨y, hy, he⟩ := ho x hx
        exact he ▸ hdr y hy
      | inserted r' rising =>
        rw [hput] at ih hsr'
        dsimp only
        rw [bubbleRight_eq_inserted]
        exact heap_bubbleRight hsr' hdl hdr hhl ih

/-- The heap part of `PutHeap`.
Source: none: infrastructure
Kind: L -/
theorem PutHeap.isMinHeap {key : Uint256} {prio : Nat} {t : BinaryTree TreapNode} {res : PutResult}
    (h : PutHeap key prio t res) : IsMinHeap TreapNode.prio res.tree := by
  cases res with
  | replaced t' => exact h.1
  | inserted t' rising => exact h.heap

/-! ## `put` on a treap -/

/-- `put`'s descent keeps the shape invariant.
Source: none: infrastructure
Kind: L -/
theorem wfTree_putAux (key : Uint256) (value : Value) {t : BinaryTree TreapNode} (h : WFTree t) :
    WFTree (putAux key value t).tree :=
  ⟨keySorted_putAux key value h.sorted, (putHeap_putAux key value h.sorted h.heap).isMinHeap,
    (sizeOK_putAux key value h.sizes).1⟩

/-- The one-node tree `put` builds in an empty treap.
Source: none: infrastructure
Kind: L -/
theorem wfTree_single (d : TreapNode) (hd : d.size = 1) : WFTree (node d nil nil) :=
  ⟨by simp [KeySorted], ⟨by simp, by simp, trivial, trivial⟩, ⟨by simp [hd, numNodes], trivial, trivial⟩⟩

namespace TicketTreap

variable {t : TicketTreap}

/-- The empty treap is well formed.
Source: `src/stake/treap/tickettreap.cpp` `TicketTreap::TicketTreap`
Kind: L -/
theorem WF.empty : TicketTreap.empty.WF := ⟨⟨List.Pairwise.nil, trivial, trivial⟩, rfl, rfl⟩

/-- `put` acts on the entries as a sorted insertion.
Source: `src/stake/treap/tickettreap.cpp` `TicketTreap::put`
Kind: L -/
theorem entries_put (h : t.WF) (key : Uint256) (value : Value) :
    entries (t.put key value).root = SortedKV.insert key value (entries t.root) := by
  obtain ⟨root, count, totalSize⟩ := t
  cases root with
  | nil => simp [put, TreapNode.entry, SortedKV.insert]
  | node d l r =>
    have he := entries_putAux key value h.tree.sorted
    simp only [put]
    cases hput : putAux key value (node d l r) with
    | replaced r' => rw [hput] at he; exact he
    | inserted r' rising => rw [hput] at he; exact he

/-- `put` keeps a treap well formed.
Source: `src/stake/treap/tickettreap.cpp` `TicketTreap::put`
Kind: L -/
theorem wf_put (h : t.WF) (key : Uint256) (value : Value) : (t.put key value).WF := by
  obtain ⟨root, count, totalSize⟩ := t
  obtain ⟨htree, hcount, hsize⟩ := h
  cases root with
  | nil => exact ⟨wfTree_single _ rfl, rfl, by simp [put]⟩
  | node d l r =>
    have hw := wfTree_putAux key value htree
    have hn := (sizeOK_putAux key value htree.sizes).2
    simp only at hcount hsize
    simp only [put]
    cases hput : putAux key value (node d l r) with
    | replaced r' =>
      rw [hput] at hw hn
      simp only [PutResult.tree, PutResult.added] at hw hn
      exact ⟨hw, by simp only; omega, hsize⟩
    | inserted r' rising =>
      rw [hput] at hw hn
      simp only [PutResult.tree, PutResult.added] at hw hn
      exact ⟨hw, by simp only; omega, by simp only [hsize, Nat.succ_mul]⟩

/-- `get` after `put`: the new value at the key, the old values elsewhere.
Source: `src/stake/treap/tickettreap.cpp` `TicketTreap::put`, `TicketTreap::get`
Kind: L -/
theorem get_put (h : t.WF) (key : Uint256) (value : Value) (j : Uint256) :
    (t.put key value).get j = if j = key then some value else t.get j := by
  rw [get_eq_find? (wf_put h key value).tree.sorted, entries_put h, SortedKV.find?_insert,
    get_eq_find? h.tree.sorted]

end TicketTreap

/-! ## `deleteKey`'s rotation loop -/

/-- Source: none: infrastructure. Kind: L -/
@[simp] theorem TreapNode.entry_with_size (d : TreapNode) (n : Nat) :
    ({ d with size := n } : TreapNode).entry = d.entry := rfl

/-- Source: none: infrastructure. Kind: L -/
@[simp] theorem TreapNode.prio_with_size (d : TreapNode) (n : Nat) :
    ({ d with size := n } : TreapNode).prio = d.prio := rfl

/-- Dropping the node between `l` and `r` leaves their entries side by side.
Source: none: infrastructure
Kind: L -/
theorem entries_sinkDelete (l r : BinaryTree TreapNode) :
    entries (sinkDelete l r) = entries l ++ entries r := by
  fun_induction sinkDelete l r with
  | case1 => rfl
  | case2 c cl cr ih => simp [ih]
  | case3 c cl cr ih => simp [ih]
  | case4 a al ar b bl br _ ih => simp [ih]
  | case5 a al ar b bl br _ ih => simp [ih]

/-- The rotation loop keeps the sizes: its result has the nodes of both sides.
Source: none: infrastructure
Kind: L -/
theorem sizeOK_sinkDelete {l r : BinaryTree TreapNode} (hl : SizeOK l) (hr : SizeOK r) :
    SizeOK (sinkDelete l r) ∧ (sinkDelete l r).numNodes = l.numNodes + r.numNodes := by
  fun_induction sinkDelete l r with
  | case1 => exact ⟨trivial, rfl⟩
  | case2 c cl cr ih =>
    obtain ⟨hc, hcl, hcr⟩ := hr
    obtain ⟨hs, hn⟩ := ih trivial hcl
    simp only [numNodes] at hc hn ⊢
    exact ⟨⟨by simp only [subtreeSize]; omega, hs, hcr⟩, by omega⟩
  | case3 c cl cr ih =>
    obtain ⟨hc, hcl, hcr⟩ := hl
    obtain ⟨hs, hn⟩ := ih hcr trivial
    simp only [numNodes] at hc hn ⊢
    exact ⟨⟨by simp only [subtreeSize]; omega, hcl, hs⟩, by omega⟩
  | case4 a al ar b bl br _ ih =>
    obtain ⟨ha, hal, har⟩ := hl
    obtain ⟨hs, hn⟩ := ih har hr
    have hb := hr.1
    simp only [numNodes] at ha hb hn ⊢
    exact ⟨⟨by simp only; omega, hal, hs⟩, by omega⟩
  | case5 a al ar b bl br _ ih =>
    obtain ⟨hb, hbl, hbr⟩ := hr
    obtain ⟨hs, hn⟩ := ih hl hbl
    have ha := hl.1
    simp only [numNodes] at ha hb hn ⊢
    exact ⟨⟨by simp only; omega, hs, hbr⟩, by omega⟩

/-- The rotation loop keeps the heap, and every priority of its result is one of the two
sides'.
Source: none: infrastructure
Kind: L -/
theorem heap_sinkDelete {l r : BinaryTree TreapNode} (hl : IsMinHeap TreapNode.prio l)
    (hr : IsMinHeap TreapNode.prio r) :
    IsMinHeap TreapNode.prio (sinkDelete l r) ∧
      ∀ x ∈ (sinkDelete l r).inorder, ∃ y ∈ l.inorder ++ r.inorder, y.prio = x.prio := by
  fun_induction sinkDelete l r with
  | case1 => exact ⟨trivial, fun x hx => by simp at hx⟩
  | case2 c cl cr ih =>
    obtain ⟨hccl, hccr, hhcl, hhcr⟩ := hr
    obtain ⟨hs, ho⟩ := ih trivial hhcl
    refine ⟨⟨fun x hx => ?_, hccr, hs, hhcr⟩, fun x hx => ?_⟩
    · obtain ⟨y, hy, he⟩ := ho x hx
      exact he ▸ hccl y (by simpa using hy)
    · simp only [inorder_node, List.mem_append, List.mem_cons] at hx
      rcases hx with hx | rfl | hx
      · obtain ⟨y, hy, he⟩ := ho x hx
        exact ⟨y, by simp at hy; simp [hy], he⟩
      · exact ⟨c, by simp, rfl⟩
      · exact ⟨x, by simp [hx], rfl⟩
  | case3 c cl cr ih =>
    obtain ⟨hccl, hccr, hhcl, hhcr⟩ := hl
    obtain ⟨hs, ho⟩ := ih hhcr trivial
    refine ⟨⟨hccl, fun x hx => ?_, hhcl, hs⟩, fun x hx => ?_⟩
    · obtain ⟨y, hy, he⟩ := ho x hx
      exact he ▸ hccr y (by simpa using hy)
    · simp only [inorder_node, List.mem_append, List.mem_cons] at hx
      rcases hx with hx | rfl | hx
      · exact ⟨x, by simp [hx], rfl⟩
      · exact ⟨c, by simp, rfl⟩
      · obtain ⟨y, hy, he⟩ := ho x hx
        exact ⟨y, by simp at hy; simp [hy], he⟩
  | case4 a al ar b bl br hab ih =>
    -- `a` has the smaller priority and becomes the root; `b`'s side goes below it
    have hab' : a.prio ≤ b.prio := UInt32.le_iff_toNat_le.1 hab
    have hbr := prio_root_le hr
    obtain ⟨haal, haar, hhal, hhar⟩ := hl
    obtain ⟨hs, ho⟩ := ih hhar hr
    refine ⟨⟨haal, fun x hx => ?_, hhal, hs⟩, fun x hx => ?_⟩
    · obtain ⟨y, hy, he⟩ := ho x hx
      rw [← he]
      rcases List.mem_append.1 hy with hy | hy
      · exact haar y hy
      · exact hab'.trans (hbr y hy)
    · simp only [inorder_node, List.mem_append, List.mem_cons] at hx
      rcases hx with hx | rfl | hx
      · exact ⟨x, by simp [hx], rfl⟩
      · exact ⟨a, by simp, rfl⟩
      · obtain ⟨y, hy, he⟩ := ho x hx
        refine ⟨y, ?_, he⟩
        simp only [inorder_node, List.mem_append, List.mem_cons] at hy ⊢
        tauto
  | case5 a al ar b bl br hab ih =>
    -- `b` has the smaller priority and becomes the root; `a`'s side goes below it
    have hab' : b.prio ≤ a.prio := by
      rw [UInt32.le_iff_toNat_le] at hab
      exact (Nat.lt_of_not_le hab).le
    have har := prio_root_le hl
    obtain ⟨hbbl, hbbr, hhbl, hhbr⟩ := hr
    obtain ⟨hs, ho⟩ := ih hl hhbl
    refine ⟨⟨fun x hx => ?_, hbbr, hs, hhbr⟩, fun x hx => ?_⟩
    · obtain ⟨y, hy, he⟩ := ho x hx
      rw [← he]
      rcases List.mem_append.1 hy with hy | hy
      · exact hab'.trans (har y hy)
      · exact hbbl y hy
    · simp only [inorder_node, List.mem_append, List.mem_cons] at hx
      rcases hx with hx | rfl | hx
      · obtain ⟨y, hy, he⟩ := ho x hx
        refine ⟨y, ?_, he⟩
        simp only [inorder_node, List.mem_append, List.mem_cons] at hy ⊢
        tauto
      · exact ⟨b, by simp, rfl⟩
      · exact ⟨x, by simp [hx], rfl⟩

/-! ## `deleteKey`'s descent -/

/-- The descent of `deleteKey` erases the key from the entries.
Source: none: infrastructure
Kind: L -/
theorem entries_deleteAux (key : Uint256) {t : BinaryTree TreapNode}
    (hs : KeySorted TreapNode.key t) : entries (deleteAux key t) = SortedKV.erase key (entries t) := by
  induction t with
  | nil => rfl
  | node d l r ihl ihr =>
    obtain ⟨hl, hr, hla, har⟩ := (keySorted_node_iff _).1 hs
    have hlk : ∀ a ∈ entries l, a.1 < d.key := fun a ha => by
      obtain ⟨x, hx, rfl⟩ := mem_entries.1 ha
      exact hla x hx
    have hrk : ∀ b ∈ entries r, d.key < b.1 := fun b hb => by
      obtain ⟨x, hx, rfl⟩ := mem_entries.1 hb
      exact har x hx
    rcases lt_trichotomy key d.key with hk | hk | hk
    · simp only [deleteAux, compare_lt_iff_lt.2 hk, entries_node, TreapNode.entry_with_size, ihl hl]
      exact (SortedKV.erase_append_cons_of_lt hk hrk).symm
    · subst hk
      simp only [deleteAux, compare_eq_iff_eq.2 rfl, entries_sinkDelete, entries_node]
      exact (SortedKV.erase_append_cons_self hlk d.value).symm
    · simp only [deleteAux, compare_gt_iff_gt.2 hk, entries_node, TreapNode.entry_with_size, ihr hr]
      exact (SortedKV.erase_append_cons_of_gt (fun a ha => (hlk a ha).trans hk) hk).symm

/-- Below a key present in a sorted tree, the descent keeps the sizes and removes one node.
Source: none: infrastructure
Kind: L -/
theorem sizeOK_deleteAux (key : Uint256) {t : BinaryTree TreapNode} (hs : KeySorted TreapNode.key t)
    (h : SizeOK t) (hk : ∃ x ∈ t.inorder, x.key = key) :
    SizeOK (deleteAux key t) ∧ (deleteAux key t).numNodes + 1 = t.numNodes := by
  induction t with
  | nil => simp at hk
  | node d l r ihl ihr =>
    obtain ⟨hl, hr, hla, har⟩ := (keySorted_node_iff _).1 hs
    obtain ⟨hd, hsl, hsr⟩ := h
    obtain ⟨x, hx, rfl⟩ := hk
    simp only [inorder_node, List.mem_append, List.mem_cons] at hx
    rcases lt_trichotomy x.key d.key with hlt | heq | hgt
    · -- the key is in the left subtree
      have hxl : x ∈ l.inorder := by
        rcases hx with hx | rfl | hx
        · exact hx
        · exact absurd hlt (lt_irrefl _)
        · exact absurd (hlt.trans (har x hx)) (lt_irrefl _)
      obtain ⟨hs', hn⟩ := ihl hl hsl ⟨x, hxl, rfl⟩
      simp only [deleteAux, compare_lt_iff_lt.2 hlt, numNodes]
      exact ⟨⟨by simp only; omega, hs', hsr⟩, by omega⟩
    · simp only [deleteAux, compare_eq_iff_eq.2 heq, numNodes]
      obtain ⟨hs', hn⟩ := sizeOK_sinkDelete hsl hsr
      exact ⟨hs', by omega⟩
    · -- the key is in the right subtree
      have hxr : x ∈ r.inorder := by
        rcases hx with hx | rfl | hx
        · exact absurd ((hla x hx).trans hgt) (lt_irrefl _)
        · exact absurd hgt (lt_irrefl _)
        · exact hx
      obtain ⟨hs', hn⟩ := ihr hr hsr ⟨x, hxr, rfl⟩
      simp only [deleteAux, compare_gt_iff_gt.2 hgt, numNodes]
      exact ⟨⟨by simp only; omega, hsl, hs'⟩, by omega⟩

/-- The descent keeps the heap, and every priority of its result is an old one.
Source: none: infrastructure
Kind: L -/
theorem heap_deleteAux (key : Uint256) {t : BinaryTree TreapNode} (h : IsMinHeap TreapNode.prio t) :
    IsMinHeap TreapNode.prio (deleteAux key t) ∧
      ∀ x ∈ (deleteAux key t).inorder, ∃ y ∈ t.inorder, y.prio = x.prio := by
  induction t with
  | nil => exact ⟨trivial, fun x hx => by simp [deleteAux] at hx⟩
  | node d l r ihl ihr =>
    obtain ⟨hdl, hdr, hhl, hhr⟩ := h
    rcases lt_trichotomy key d.key with hk | hk | hk
    · obtain ⟨hh', ho⟩ := ihl hhl
      simp only [deleteAux, compare_lt_iff_lt.2 hk]
      refine ⟨⟨fun x hx => ?_, hdr, hh', hhr⟩, fun x hx => ?_⟩
      · obtain ⟨y, hy, he⟩ := ho x hx
        exact he ▸ hdl y hy
      · simp only [inorder_node, List.mem_append, List.mem_cons] at hx
        rcases hx with hx | rfl | hx
        · obtain ⟨y, hy, he⟩ := ho x hx
          exact ⟨y, by simp [hy], he⟩
        · exact ⟨d, by simp, rfl⟩
        · exact ⟨x, by simp [hx], rfl⟩
    · obtain ⟨hh', ho⟩ := heap_sinkDelete hhl hhr
      simp only [deleteAux, compare_eq_iff_eq.2 hk]
      refine ⟨hh', fun x hx => ?_⟩
      obtain ⟨y, hy, he⟩ := ho x hx
      exact ⟨y, by simp only [inorder_node, List.mem_append, List.mem_cons] at hy ⊢; tauto, he⟩
    · obtain ⟨hh', ho⟩ := ihr hhr
      simp only [deleteAux, compare_gt_iff_gt.2 hk]
      refine ⟨⟨hdl, fun x hx => ?_, hhl, hh'⟩, fun x hx => ?_⟩
      · obtain ⟨y, hy, he⟩ := ho x hx
        exact he ▸ hdr y hy
      · simp only [inorder_node, List.mem_append, List.mem_cons] at hx
        rcases hx with hx | rfl | hx
        · exact ⟨x, by simp [hx], rfl⟩
        · exact ⟨d, by simp, rfl⟩
        · obtain ⟨y, hy, he⟩ := ho x hx
          exact ⟨y, by simp [hy], he⟩

/-! ## `deleteKey` on a treap -/

namespace TicketTreap

variable {t : TicketTreap}

/-- `getNode` finds a node of the tree carrying the key, or reports the key absent.
Source: none: infrastructure
Kind: L -/
theorem getNode_spec (hs : KeySorted TreapNode.key t.root) (key : Uint256) :
    (t.getNode key = none → ∀ x ∈ t.root.inorder, x.key ≠ key) ∧
      ∀ d, t.getNode key = some d → d ∈ t.root.inorder ∧ d.key = key := by
  rw [getNode, search_eq_find? _ hs]
  refine ⟨fun h x hx => by simpa using List.find?_eq_none.1 h x hx, fun d h => ?_⟩
  exact ⟨List.mem_of_find?_eq_some h, by simpa using List.find?_some h⟩

/-- `deleteKey` acts on the entries as `erase`.
Source: `src/stake/treap/tickettreap.cpp` `TicketTreap::deleteKey`
Kind: L -/
theorem entries_deleteKey (h : t.WF) (key : Uint256) :
    entries (t.deleteKey key).root = SortedKV.erase key (entries t.root) := by
  obtain ⟨habsent, -⟩ := getNode_spec h.tree.sorted key
  unfold deleteKey
  cases hget : t.getNode key with
  | none =>
    refine (SortedKV.erase_of_forall_ne fun y hy => ?_).symm
    obtain ⟨x, hx, rfl⟩ := mem_entries.1 hy
    exact habsent hget x hx
  | some _ =>
    dsimp only
    split
    · -- a lone root: erasing it empties the treap
      rename_i d hroot
      split_ifs with hk
      · simp only [hroot, entries_node, entries_nil, List.nil_append, TreapNode.entry]
        rw [hk]; simp [SortedKV.erase]
      · exact entries_deleteAux key h.tree.sorted
    · exact entries_deleteAux key h.tree.sorted

/-- `deleteKey` keeps a treap well formed.
Source: `src/stake/treap/tickettreap.cpp` `TicketTreap::deleteKey`
Kind: L -/
theorem wf_deleteKey (h : t.WF) (key : Uint256) : (t.deleteKey key).WF := by
  obtain ⟨-, hpresent⟩ := getNode_spec h.tree.sorted key
  -- the descent below a present key
  have hdesc (d : TreapNode) (hget : t.getNode key = some d) :
      (⟨deleteAux key t.root, t.count - 1, t.totalSize - sizeofTreapNode⟩ : TicketTreap).WF := by
    obtain ⟨hd, hdk⟩ := hpresent d hget
    obtain ⟨hsz, hn⟩ := sizeOK_deleteAux key h.tree.sorted h.tree.sizes ⟨d, hd, hdk⟩
    have hsorted : KeySorted TreapNode.key (deleteAux key t.root) := by
      rw [keySorted_iff_sorted, entries_deleteAux key h.tree.sorted]
      exact SortedKV.sorted_erase (keySorted_iff_sorted.1 h.tree.sorted) key
    refine ⟨⟨hsorted, (heap_deleteAux key h.tree.heap).1, hsz⟩, ?_, ?_⟩
    · simp only; rw [h.count_eq]; omega
    · simp only; rw [h.totalSize_eq, h.count_eq, ← hn, Nat.add_sub_cancel, Nat.succ_mul,
        Nat.add_sub_cancel]
  unfold deleteKey
  cases hget : t.getNode key with
  | none => exact h
  | some d =>
    dsimp only
    split
    · split_ifs
      · exact ⟨⟨List.Pairwise.nil, trivial, trivial⟩, rfl, rfl⟩
      · exact hdesc d hget
    · exact hdesc d hget

/-- `get` after `deleteKey`: nothing at the key, the old values elsewhere.
Source: `src/stake/treap/tickettreap.cpp` `TicketTreap::deleteKey`, `TicketTreap::get`
Kind: L -/
theorem get_deleteKey (h : t.WF) (key j : Uint256) :
    (t.deleteKey key).get j = if j = key then none else t.get j := by
  rw [get_eq_find? (wf_deleteKey h key).tree.sorted, entries_deleteKey h,
    SortedKV.find?_erase (keySorted_iff_sorted.1 h.tree.sorted), get_eq_find? h.tree.sorted]

end TicketTreap

/-! ## Counting -/

namespace TicketTreap

variable {t : TicketTreap}

/-- `len` counts the entries.
Source: `src/stake/treap/tickettreap.cpp` `TicketTreap::len`
Kind: L -/
theorem len_eq_length_entries (h : t.WF) : t.len = (entries t.root).length := by
  rw [len, h.count_eq, entries, List.length_map, length_inorder]

/-- `put` adds one to `len` exactly when the key is new.
Source: `src/stake/treap/tickettreap.cpp` `TicketTreap::put`
Kind: L -/
theorem len_put (h : t.WF) (key : Uint256) (value : Value) :
    (t.put key value).len = if (t.get key).isSome then t.len else t.len + 1 := by
  rw [len_eq_length_entries (wf_put h key value), entries_put h,
    SortedKV.length_insert (keySorted_iff_sorted.1 h.tree.sorted), get_eq_find? h.tree.sorted,
    len_eq_length_entries h]

/-- `deleteKey` takes one from `len` exactly when the key is present.
Source: `src/stake/treap/tickettreap.cpp` `TicketTreap::deleteKey`
Kind: L -/
theorem len_deleteKey (h : t.WF) (key : Uint256) :
    (t.deleteKey key).len + (if (t.get key).isSome then 1 else 0) = t.len := by
  rw [len_eq_length_entries (wf_deleteKey h key), entries_deleteKey h, get_eq_find? h.tree.sorted,
    SortedKV.length_erase, len_eq_length_entries h]

end TicketTreap

/-! ## Node properties blind to `size`

The updates rebuild nodes with new `size` fields and nothing else changed, so a property of
nodes that does not read `size` survives them; `put` adds one node and may replace a value. -/

section sizeBlind

variable {P : TreapNode → Prop} (hP : ∀ (d : TreapNode) (n : Nat), P { d with size := n } ↔ P d)
include hP

/-- Source: none: infrastructure. Kind: L -/
theorem forall_bubbleLeft (p : TreapNode) (l' r : BinaryTree TreapNode) (rising : Bool) :
    (∀ x ∈ (bubbleLeft p l' r rising).tree.inorder, P x) ↔ ∀ x ∈ (node p l' r).inorder, P x := by
  cases rising with
  | false => simp [bubbleLeft, PutResult.tree]
  | true =>
    cases l' with
    | nil => simp [bubbleLeft, PutResult.tree]
    | node n nl nr =>
      simp only [bubbleLeft]
      split_ifs
      · rfl
      · simp only [PutResult.tree, inorder_node, List.forall_mem_append, List.forall_mem_cons, hP]
        tauto

/-- Source: none: infrastructure. Kind: L -/
theorem forall_bubbleRight (p : TreapNode) (l r' : BinaryTree TreapNode) (rising : Bool) :
    (∀ x ∈ (bubbleRight p l r' rising).tree.inorder, P x) ↔ ∀ x ∈ (node p l r').inorder, P x := by
  cases rising with
  | false => simp [bubbleRight, PutResult.tree]
  | true =>
    cases r' with
    | nil => simp [bubbleRight, PutResult.tree]
    | node n nl nr =>
      simp only [bubbleRight]
      split_ifs
      · rfl
      · simp only [PutResult.tree, inorder_node, List.forall_mem_append, List.forall_mem_cons, hP]
        tauto

/-- After `put`'s descent every node has the property, given it of the old nodes, of the new
node and of a replaced node.
Source: none: infrastructure
Kind: L -/
theorem forall_putAux (key : Uint256) (value : Value) {t : BinaryTree TreapNode}
    (ht : ∀ x ∈ t.inorder, P x) (hnew : P ⟨key, value, value.height, 1⟩)
    (hrep : ∀ x ∈ t.inorder, x.key = key → P { x with value := value }) :
    ∀ x ∈ (putAux key value t).tree.inorder, P x := by
  induction t with
  | nil => simpa [putAux, PutResult.tree] using hnew
  | node d l r ihl ihr =>
    simp only [inorder_node, List.forall_mem_append, List.forall_mem_cons] at ht
    obtain ⟨hl, hd, hr⟩ := ht
    have hrepl : ∀ x ∈ l.inorder, x.key = key → P { x with value := value } :=
      fun x hx => hrep x (by simp [hx])
    have hrepr : ∀ x ∈ r.inorder, x.key = key → P { x with value := value } :=
      fun x hx => hrep x (by simp [hx])
    rcases lt_trichotomy key d.key with hk | rfl | hk
    · simp only [putAux, compare_lt_iff_lt.2 hk]
      have ih := ihl hl hrepl
      cases hres : putAux key value l with
      | replaced l' =>
        rw [hres] at ih
        simp only [PutResult.tree, inorder_node, List.forall_mem_append, List.forall_mem_cons]
        exact ⟨ih, hd, hr⟩
      | inserted l' rising =>
        rw [hres] at ih
        rw [forall_bubbleLeft hP]
        simp only [inorder_node, List.forall_mem_append, List.forall_mem_cons, hP]
        exact ⟨ih, hd, hr⟩
    · simp only [putAux, compare_eq_iff_eq.2 rfl, PutResult.tree, inorder_node,
        List.forall_mem_append, List.forall_mem_cons]
      exact ⟨hl, hrep d (by simp) rfl, hr⟩
    · simp only [putAux, compare_gt_iff_gt.2 hk]
      have ih := ihr hr hrepr
      cases hres : putAux key value r with
      | replaced r' =>
        rw [hres] at ih
        simp only [PutResult.tree, inorder_node, List.forall_mem_append, List.forall_mem_cons]
        exact ⟨hl, hd, ih⟩
      | inserted r' rising =>
        rw [hres] at ih
        rw [forall_bubbleRight hP]
        simp only [inorder_node, List.forall_mem_append, List.forall_mem_cons, hP]
        exact ⟨hl, hd, ih⟩

/-- Source: none: infrastructure. Kind: L -/
theorem forall_sinkDelete {l r : BinaryTree TreapNode} (hl : ∀ x ∈ l.inorder, P x)
    (hr : ∀ x ∈ r.inorder, P x) : ∀ x ∈ (sinkDelete l r).inorder, P x := by
  fun_induction sinkDelete l r with
  | case1 => simp
  | case2 c cl cr ih =>
    simp only [inorder_node, List.forall_mem_append, List.forall_mem_cons, hP] at hr ⊢
    exact ⟨ih (by simp) hr.1, hr.2⟩
  | case3 c cl cr ih =>
    simp only [inorder_node, List.forall_mem_append, List.forall_mem_cons, hP] at hl ⊢
    exact ⟨hl.1, hl.2.1, ih hl.2.2 (by simp)⟩
  | case4 a al ar b bl br _ ih =>
    have hl' := hl
    simp only [inorder_node, List.forall_mem_append, List.forall_mem_cons, hP] at hl' ⊢
    exact ⟨hl'.1, hl'.2.1, ih hl'.2.2 hr⟩
  | case5 a al ar b bl br _ ih =>
    have hr' := hr
    simp only [inorder_node, List.forall_mem_append, List.forall_mem_cons, hP] at hr' ⊢
    exact ⟨ih hl hr'.1, hr'.2.1, hr'.2.2⟩

/-- Source: none: infrastructure. Kind: L -/
theorem forall_deleteAux (key : Uint256) {t : BinaryTree TreapNode} (ht : ∀ x ∈ t.inorder, P x) :
    ∀ x ∈ (deleteAux key t).inorder, P x := by
  induction t with
  | nil => simp [deleteAux]
  | node d l r ihl ihr =>
    simp only [inorder_node, List.forall_mem_append, List.forall_mem_cons] at ht
    obtain ⟨hl, hd, hr⟩ := ht
    rcases lt_trichotomy key d.key with hk | hk | hk
    · simp only [deleteAux, compare_lt_iff_lt.2 hk, inorder_node, List.forall_mem_append,
        List.forall_mem_cons, hP]
      exact ⟨ihl hl, hd, hr⟩
    · simp only [deleteAux, compare_eq_iff_eq.2 hk]
      exact forall_sinkDelete hP hl hr
    · simp only [deleteAux, compare_gt_iff_gt.2 hk, inorder_node, List.forall_mem_append,
        List.forall_mem_cons, hP]
      exact ⟨hl, hd, ihr hr⟩

end sizeBlind

namespace TicketTreap

variable {t : TicketTreap}

/-- Every node's priority is its value's height: true of a treap whose keys were only ever
inserted fresh (`put` keeps the old priority when it replaces a value).
Source: none: infrastructure
Kind: D -/
def PrioIsHeight (t : TicketTreap) : Prop := ∀ x ∈ t.root.inorder, x.priority = x.value.height

/-- Source: none: infrastructure. Kind: L -/
theorem PrioIsHeight.empty : TicketTreap.empty.PrioIsHeight := by
  simp [PrioIsHeight, TicketTreap.empty]

/-- `put` of a new key keeps priorities equal to heights.
Source: `src/stake/treap/tickettreap.cpp` `TicketTreap::put`
Kind: L -/
theorem PrioIsHeight.put (hp : t.PrioIsHeight) (hs : KeySorted TreapNode.key t.root)
    {key : Uint256} (hfresh : t.get key = none) (value : Value) : (t.put key value).PrioIsHeight := by
  have hnone : ∀ x ∈ t.root.inorder, x.key ≠ key :=
    (getNode_spec hs key).1 (by simpa [get] using hfresh)
  have hP : ∀ (d : TreapNode) (n : Nat),
      ({ d with size := n } : TreapNode).priority = ({ d with size := n } : TreapNode).value.height ↔
        d.priority = d.value.height := fun _ _ => Iff.rfl
  -- no node carries the key, so `put` links a new node and replaces nothing
  have hall := forall_putAux hP key value hp rfl (fun x hx hk => absurd hk (hnone x hx))
  obtain ⟨root, count, totalSize⟩ := t
  cases root with
  | nil => simp [PrioIsHeight, TicketTreap.put]
  | node d l r =>
    simp only [PrioIsHeight, TicketTreap.put]
    cases hput : putAux key value (node d l r) with
    | replaced r' => rw [hput] at hall; exact hall
    | inserted r' rising => rw [hput] at hall; exact hall

/-- `deleteKey` keeps priorities equal to heights.
Source: `src/stake/treap/tickettreap.cpp` `TicketTreap::deleteKey`
Kind: L -/
theorem PrioIsHeight.deleteKey (hp : t.PrioIsHeight) (key : Uint256) :
    (t.deleteKey key).PrioIsHeight := by
  have hP : ∀ (d : TreapNode) (n : Nat),
      ({ d with size := n } : TreapNode).priority = ({ d with size := n } : TreapNode).value.height ↔
        d.priority = d.value.height := fun _ _ => Iff.rfl
  have hdesc := forall_deleteAux hP key hp
  unfold PrioIsHeight TicketTreap.deleteKey
  split
  · exact hp
  · split
    · split_ifs
      · simp
      · exact hdesc
    · exact hdesc

end TicketTreap

/-! ## Rank selection -/

/-- The loop of `getByIndex` returns the entry at the in-order position.
Source: `src/stake/treap/treapnode.cpp` `TreapNode::getByIndex`
Kind: L -/
theorem getByIndexLoop_eq {t : BinaryTree TreapNode} (h : SizeOK t) {idx : Int} (h0 : 0 ≤ idx)
    {e : Uint256 × Value} (he : (entries t)[idx.toNat]? = some e) : getByIndexLoop t idx = .ok e := by
  fun_induction getByIndexLoop t idx with
  | case1 => simp at he
  | case2 d r =>
    simp only [entries_node, entries_nil, List.nil_append, Int.toNat_zero,
      List.getElem?_cons_zero, Option.some.injEq] at he
    rw [← he]; rfl
  | case3 d r idx hz ih =>
    have hidx : idx.toNat = (idx - 1).toNat + 1 := by omega
    simp only [entries_node, entries_nil, List.nil_append, hidx, List.getElem?_cons_succ] at he
    exact ih h.2.2 (by omega) he
  | case4 d c cl cr r idx hlt ih =>
    have hc : (entries (node c cl cr)).length = c.size := by
      rw [entries, List.length_map, length_inorder, ← subtreeSize_eq h.2.1]; rfl
    rw [entries_node, List.getElem?_append_left (by omega)] at he
    exact ih h.2.1 h0 he
  | case5 d c cl cr r =>
    have hc : (entries (node c cl cr)).length = c.size := by
      rw [entries, List.length_map, length_inorder, ← subtreeSize_eq h.2.1]; rfl
    rw [entries_node, List.getElem?_append_right (by omega)] at he
    simp only [hc, Int.toNat_natCast, Nat.sub_self, List.getElem?_cons_zero,
      Option.some.injEq] at he
    rw [← he]; rfl
  | case6 d c cl cr r idx hlt hne ih =>
    have hc : (entries (node c cl cr)).length = c.size := by
      rw [entries, List.length_map, length_inorder, ← subtreeSize_eq h.2.1]; rfl
    rw [entries_node, List.getElem?_append_right (by omega)] at he
    have hidx : idx.toNat - (entries (node c cl cr)).length = (idx - c.size - 1).toNat + 1 := by
      omega
    rw [hidx, List.getElem?_cons_succ] at he
    exact ih h.2.2 (by omega) he

namespace TicketTreap

variable {t : TicketTreap}

/-- `getByIndex` in bounds returns the entry of that rank.
Source: `src/stake/treap/tickettreap.cpp` `TicketTreap::getByIndex`
Kind: L -/
theorem getByIndex_eq (h : t.WF) {idx : Nat} {e : Uint256 × Value}
    (he : (entries t.root)[idx]? = some e) : t.getByIndex idx = .ok e := by
  have hi : idx < (entries t.root).length := (List.getElem?_eq_some_iff.1 he).1
  unfold getByIndex
  split
  · rename_i hroot; simp [hroot] at hi
  · rename_i d l r hroot
    have hsize : d.size = (entries t.root).length := by
      rw [entries, List.length_map, length_inorder, ← subtreeSize_eq h.tree.sizes, hroot]; rfl
    rw [if_neg (by omega), ← hroot]
    exact getByIndexLoop_eq h.tree.sizes (by omega) (by simpa using he)

/-- `fetchWinners` with every index in range returns the keys of those ranks, in the order of
the indices.
Source: `src/stake/treap/tickettreap.cpp` `TicketTreap::fetchWinners`
Kind: L -/
theorem fetchWinners_eq (h : t.WF) (hlen : 0 < t.len) {idxs : List UInt32}
    (hidx : ∀ i ∈ idxs, i.toNat < t.len) :
    t.fetchWinners idxs = .ok (idxs.filterMap fun i => (SortedKV.keys (entries t.root))[i.toNat]?) := by
  unfold fetchWinners
  rw [if_neg (by omega)]
  induction idxs with
  | nil => rfl
  | cons i idxs ih =>
    have hit := hidx i (by simp)
    have hi : i.toNat < (entries t.root).length := len_eq_length_entries h ▸ hit
    rw [List.mapM_cons, ih fun j hj => hidx j (by simp [hj]), if_neg (by omega),
      getByIndex_eq h (List.getElem?_eq_getElem hi)]
    simp [SortedKV.keys, hi, bind, Except.bind]

end TicketTreap

end BwsCoin.Stake
