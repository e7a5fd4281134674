import BwsCoin.Stake.TreapSpec

/-!
# The treap walks over the parent stack

`TicketTreap::forEach` and `forEachByHeight` push the left chain of the root on a
`ParentStack` and then, while the stack is not empty, pop a node, call the callback on it and
push the left chain of its right child. The stack is abstracted by the list of nodes it holds,
top first (`ParentStack.Refines`), and that list by what it leaves to visit: each stacked node,
then its right subtree in order (`pendingNodes`). Pushing the left chain of a subtree puts the
subtree's pruned in-order list in front of what was pending (`pendingNodes_leftSpine`), so one
turn of the loop visits the first pending node and leaves the others.

* `walkParents_of_fits` — while each stacked node spans, with the nodes below it, at most
  `StaticDepth` levels (`Fits`), every push stays in the array and the loop calls the callback
  on the pending nodes in order up to the first `false`;
* `forEach_eq_walkUntilFalse`, `walk_of_height_le` — so on a tree of height at most
  `StaticDepth` the walks return, having visited the in-order entries, pruned by the bound;
* `walkParents_continue_eq_foldl` — with a callback that always continues, on a tree of any
  height, a walk that returns has folded over the pending nodes: a push that loses an item
  (`ParentStack.Lost`) makes every later run fault (`walkParents_continue_ne_ok_of_lost`);
* `forEachByHeight_continue_eq_foldl` — on a heap a returning `forEachByHeight` whose callback
  always continues has folded over the nodes below the bound, in key order.
-/

namespace BwsCoin.Stake

open BinaryTree ParentStack TicketTreap

/-! ## Walks over lists -/

section list

variable {α β σ : Type}

/-- A callback called on the elements of a list in order until one call returns `false`:
whether the walk ran to the end, and the final state.
Source: none: specification
Kind: D -/
def walkUntilFalse (f : α → σ → Bool × σ) : List α → σ → Bool × σ
  | [], s => (true, s)
  | a :: as, s =>
    match f a s with
    | (false, s) => (false, s)
    | (true, s) => walkUntilFalse f as s

/-- Source: none: specification. Kind: L -/
theorem walkUntilFalse_append (f : α → σ → Bool × σ) (l₁ l₂ : List α) (s : σ) :
    walkUntilFalse f (l₁ ++ l₂) s =
      match walkUntilFalse f l₁ s with
      | (false, s) => (false, s)
      | (true, s) => walkUntilFalse f l₂ s := by
  induction l₁ generalizing s with
  | nil => rfl
  | cons a as ih =>
    simp only [List.cons_append, walkUntilFalse]
    rcases f a s with ⟨_ | _, s'⟩
    · rfl
    · exact ih s'

end list

/-! ## What the stack leaves to visit -/

section pending

variable (keep : TreapNode → Bool)

/-- Source: none: infrastructure. Kind: L -/
theorem exists_eq_node_of_ne_nil {x : BinaryTree TreapNode} (hx : x ≠ nil) :
    ∃ d l r, x = node d l r := by
  cases x with
  | nil => exact absurd rfl hx
  | node d l r => exact ⟨d, l, r, rfl⟩

/-- The nodes `pushLeft` puts on the stack, top first: the left chain of the subtree down to
`nullptr` or to the first node `keep` refuses, deepest first.
Source: `src/stake/treap/tickettreap.cpp` `TicketTreap::forEach`,
`TicketTreap::forEachByHeight` (the loops over `node->left`)
Kind: D -/
def leftSpine : BinaryTree TreapNode → List (BinaryTree TreapNode)
  | nil => []
  | node d l r => if keep d then leftSpine l ++ [node d l r] else []

/-- What a stacked node leaves to visit: itself, then its right subtree pruned by `keep`.
Source: none: specification
Kind: D -/
def pendingOf : BinaryTree TreapNode → List TreapNode
  | nil => []
  | node d _ r => d :: r.prunedInorder keep

/-- The nodes a stack, top first, leaves to visit, in the order the walk visits them.
Source: none: specification
Kind: D -/
def pendingNodes (L : List (BinaryTree TreapNode)) : List TreapNode := L.flatMap (pendingOf keep)

/-- Source: none: specification. Kind: L -/
@[simp] theorem pendingNodes_nil : pendingNodes keep [] = [] := rfl

/-- Source: none: specification. Kind: L -/
@[simp] theorem pendingNodes_cons_node (d : TreapNode) (l r : BinaryTree TreapNode)
    (L : List (BinaryTree TreapNode)) :
    pendingNodes keep (node d l r :: L) = d :: (r.prunedInorder keep ++ pendingNodes keep L) := by
  simp [pendingNodes, pendingOf]

/-- **The left chain of a subtree, pushed on a stack, leaves the subtree's pruned in-order list
to visit before what the stack left.**
Source: `src/stake/treap/tickettreap.cpp` `TicketTreap::forEach`
Kind: L -/
theorem pendingNodes_leftSpine (t : BinaryTree TreapNode) (L : List (BinaryTree TreapNode)) :
    pendingNodes keep (leftSpine keep t ++ L) = t.prunedInorder keep ++ pendingNodes keep L := by
  induction t generalizing L with
  | nil => rfl
  | node d l r ihl _ =>
    by_cases hd : keep d = true
    · rw [leftSpine, if_pos hd, List.append_assoc, List.singleton_append, ihl,
        pendingNodes_cons_node, prunedInorder, if_pos hd, List.append_assoc, List.cons_append]
    · simp only [leftSpine, prunedInorder, hd, if_false, List.nil_append, Bool.false_eq_true]

/-- The walk pushes no `nullptr`.
Source: `src/stake/treap/tickettreap.cpp` `TicketTreap::forEach`
Kind: L -/
theorem ne_nil_of_mem_leftSpine {t x : BinaryTree TreapNode} (hx : x ∈ leftSpine keep t) :
    x ≠ nil := by
  induction t with
  | nil => simp [leftSpine] at hx
  | node d l r ihl _ =>
    rw [leftSpine] at hx
    split at hx
    · rcases List.mem_append.1 hx with hx | hx
      · exact ihl hx
      · rw [List.mem_singleton.1 hx]
        exact nofun
    · simp at hx

/-- A stack that lost an item stays so under pushes.
Source: `src/stake/treap/treapnode.cpp` `ParentStack::push`
Kind: L -/
theorem lost_pushLeft {s : ParentStack (BinaryTree TreapNode)} (hl : Lost s)
    (t : BinaryTree TreapNode) : Lost (pushLeft keep s t) := by
  induction t generalizing s with
  | nil => exact hl
  | node d l r ihl _ =>
    rw [pushLeft]
    split
    · exact ihl (hl.push _)
    · exact hl

/-- Every push of a left chain onto a stack whose slots above `index` are clear either keeps
the stack a list stack with the chain on top, or loses an item.
Source: `src/stake/treap/tickettreap.cpp` `TicketTreap::forEach`,
`src/stake/treap/treapnode.cpp` `ParentStack::push`
Kind: L -/
theorem pushLeft_refines_or_lost {s : ParentStack (BinaryTree TreapNode)}
    {L : List (BinaryTree TreapNode)} (hR : Refines s L) (hC : Clear s) (t : BinaryTree TreapNode) :
    (Refines (pushLeft keep s t) (leftSpine keep t ++ L) ∧ Clear (pushLeft keep s t)) ∨
      Lost (pushLeft keep s t) := by
  induction t generalizing s L with
  | nil => exact .inl ⟨hR, hC⟩
  | node d l r ihl _ =>
    rw [pushLeft, leftSpine]
    split
    · rw [List.append_assoc, List.singleton_append]
      by_cases hg : s.index < staticDepth ∨ Tight s
      · exact ihl (hR.push hg _) (hC.push hg _)
      · -- the push lands past a popped slot, and the rest of the chain cannot recover it
        exact .inr (lost_pushLeft keep (lost_push_of_clear hC hg _) l)
    · exact .inl ⟨hR, hC⟩

end pending

/-! ## The loop -/

section loop

variable {σ : Type} (keep : TreapNode → Bool) (func : Uint256 → Value → σ → Bool × σ)
  {s : ParentStack (BinaryTree TreapNode)}

/-- An empty stack ends the loop at once.
Source: `src/stake/treap/tickettreap.cpp` `TicketTreap::forEach`
Kind: L -/
theorem walkParents_of_index_eq_zero (h : s.index = 0) (fuel : Nat) (σ₀ : σ) :
    walkParents keep func fuel s σ₀ = .ok σ₀ := by
  have hlen : ¬ s.len > 0 := by simp [ParentStack.len, h]
  cases fuel <;> simp only [walkParents, if_neg hlen]

/-- Source: none: infrastructure (the model's fuel). Kind: L -/
theorem walkParents_zero_of_index_ne_zero (h : s.index ≠ 0) (σ₀ : σ) :
    walkParents keep func 0 s σ₀ = .error .diverge := by
  have hlen : s.len > 0 := by simp only [ParentStack.len]; omega
  simp only [walkParents, if_pos hlen]

/-- One turn of the loop that pops a node: call the callback, stop on `false`, push the left
chain of the right child on `true`.
Source: `src/stake/treap/tickettreap.cpp` `TicketTreap::forEach`
Kind: L -/
theorem walkParents_succ_of_pop {d : TreapNode} {l r : BinaryTree TreapNode}
    (hpop : (s.pop).1 = some (node d l r)) (fuel : Nat) (σ₀ : σ) :
    walkParents keep func (fuel + 1) s σ₀ =
      match func d.key d.value σ₀ with
      | (false, σ₁) => .ok σ₁
      | (true, σ₁) => walkParents keep func fuel (pushLeft keep (s.pop).2 r) σ₁ := by
  have hlen : s.len > 0 := by
    simp only [ParentStack.len]
    by_contra h0
    simp [ParentStack.pop, show s.index = 0 by omega] at hpop
  rw [walkParents, if_pos hlen]
  -- the popped slot is the node
  split
  · next d' l' r' parents hq =>
    rw [hq] at hpop
    cases hpop
    rcases func d.key d.value σ₀ with ⟨_ | _, σ₁⟩ <;> simp only [hq]
  · next hne =>
    exact (hne d l r (s.pop).2 (Prod.ext hpop rfl)).elim

/-- A turn of the loop that pops `nullptr` dereferences it.
Source: `src/stake/treap/tickettreap.cpp` `TicketTreap::forEach` (`pnode->key`)
Kind: L -/
theorem walkParents_succ_of_pop_nil (h : s.index ≠ 0)
    (hpop : ∀ d l r, (s.pop).1 ≠ some (node d l r)) (fuel : Nat) (σ₀ : σ) :
    walkParents keep func (fuel + 1) s σ₀ = .error .nullDeref := by
  have hlen : s.len > 0 := by simp only [ParentStack.len]; omega
  rw [walkParents, if_pos hlen]
  rcases hp : s.pop with ⟨_ | _ | ⟨d, l, r⟩, s'⟩
  · rfl
  · rfl
  · exact absurd (congrArg Prod.fst hp) (hpop d l r)

/-- The stacked nodes, each spanning with the nodes below it at most `StaticDepth` levels: the
left chains the walk pushes from them stay in the array.
Source: none: infrastructure
Kind: D -/
def Fits : List (BinaryTree TreapNode) → Prop
  | [] => True
  | x :: L => x ≠ nil ∧ L.length + x.height ≤ staticDepth ∧ Fits L

/-- **A stack that lost an item never lets a walk whose callback always continues return**: the
pop that reaches the cleared slot dereferences `nullptr`.
Source: `src/stake/treap/tickettreap.cpp` `TicketTreap::forEach`,
`src/stake/treap/treapnode.cpp` `ParentStack::pop`
Kind: L -/
theorem walkParents_continue_ne_ok_of_lost (g : Uint256 → Value → σ → σ) (fuel : Nat) :
    ∀ (s : ParentStack (BinaryTree TreapNode)) (σ₀ σ₁ : σ), Lost s →
      walkParents keep (fun k v σ => (true, g k v σ)) fuel s σ₀ ≠ .ok σ₁ := by
  induction fuel with
  | zero =>
    intro s σ₀ σ₁ ⟨j, hj, _⟩
    rw [walkParents_zero_of_index_ne_zero _ _ (by omega)]
    exact nofun
  | succ fuel ih =>
    intro s σ₀ σ₁ hl
    have hj0 : s.index ≠ 0 := by
      obtain ⟨j, hj, _⟩ := hl
      omega
    -- the pop reads `nullptr`, or reads a node and leaves a stack that is still lost
    rcases hp : (s.pop).1 with _ | _ | ⟨d, l, r⟩
    · rw [walkParents_succ_of_pop_nil _ _ hj0 (fun d l r h => by simp [hp] at h)]
      exact nofun
    · rw [walkParents_succ_of_pop_nil _ _ hj0 (fun d l r h => by simp [hp] at h)]
      exact nofun
    · have hl' : Lost (s.pop).2 := (hl.pop).resolve_left (by rw [hp]; exact Option.some_ne_none _)
      rw [walkParents_succ_of_pop _ _ hp]
      exact ih _ _ _ (lost_pushLeft keep hl' r)

/-- **A walk whose callback always continues and that returns has folded over the pending
nodes**, on a stack of any depth whose slots above `index` are clear.
Source: `src/stake/treap/tickettreap.cpp` `TicketTreap::forEach`,
`TicketTreap::forEachByHeight`
Kind: L -/
theorem walkParents_continue_eq_foldl (g : Uint256 → Value → σ → σ) (fuel : Nat) :
    ∀ (s : ParentStack (BinaryTree TreapNode)) (L : List (BinaryTree TreapNode)) (σ₀ σ₁ : σ),
      Refines s L → Clear s → (∀ x ∈ L, x ≠ nil) →
      walkParents keep (fun k v σ => (true, g k v σ)) fuel s σ₀ = .ok σ₁ →
      σ₁ = (pendingNodes keep L).foldl (fun σ d => g d.key d.value σ) σ₀ := by
  induction fuel with
  | zero =>
    intro s L σ₀ σ₁ hR _ _ hok
    cases L with
    | nil =>
      rw [walkParents_of_index_eq_zero _ _ hR.index_eq] at hok
      exact (Except.ok.inj hok).symm
    | cons x L =>
      rw [walkParents_zero_of_index_ne_zero _ _ (by rw [hR.index_eq]; simp)] at hok
      exact nomatch hok
  | succ fuel ih =>
    intro s L σ₀ σ₁ hR hC hnil hok
    cases L with
    | nil =>
      rw [walkParents_of_index_eq_zero _ _ hR.index_eq] at hok
      exact (Except.ok.inj hok).symm
    | cons x L =>
      obtain ⟨d, l, r, rfl⟩ := exists_eq_node_of_ne_nil (hnil x List.mem_cons_self)
      obtain ⟨hpop, hR'⟩ := hR.pop
      rw [List.head?_cons] at hpop
      rw [List.tail_cons] at hR'
      rw [walkParents_succ_of_pop _ _ hpop] at hok
      rw [pendingNodes_cons_node, List.foldl_cons]
      -- the pushed chain either keeps the list stack, or loses an item and the walk faults
      rcases pushLeft_refines_or_lost keep hR' hC.pop r with ⟨hR'', hC''⟩ | hl
      · have hnil' : ∀ y ∈ leftSpine keep r ++ L, y ≠ nil := fun y hy =>
          (List.mem_append.1 hy).elim (ne_nil_of_mem_leftSpine keep)
            fun hy => hnil y (List.mem_cons_of_mem _ hy)
        rw [ih _ _ _ _ hR'' hC'' hnil' hok, pendingNodes_leftSpine, List.foldl_append]
      · exact absurd hok (walkParents_continue_ne_ok_of_lost keep g fuel _ _ _ hl)

end loop

/-! ## The walks of a treap -/

section treap

variable {σ : Type} (keep : TreapNode → Bool)

/-- The fresh stack with the root's left chain pushed: a list stack while the chain stays in the
array, clear above `index` in any case.
Source: `src/stake/treap/tickettreap.cpp` `TicketTreap::forEach`
Kind: L -/
theorem pushLeft_empty_refines_or_lost (t : BinaryTree TreapNode) :
    (Refines (pushLeft keep empty t) (leftSpine keep t) ∧ Clear (pushLeft keep empty t)) ∨
      Lost (pushLeft keep empty t) := by
  simpa using pushLeft_refines_or_lost keep refines_empty clear_empty t

/-- A returning walk whose callback always continues has folded over the in-order nodes `keep`
reaches, on a tree of any height.
Source: `src/stake/treap/tickettreap.cpp` `TicketTreap::forEach`,
`TicketTreap::forEachByHeight`
Kind: L -/
theorem walk_continue_eq_foldl (t : TicketTreap) (g : Uint256 → Value → σ → σ) {s s' : σ}
    (hok : walk keep t (fun k v σ => (true, g k v σ)) s = .ok s') :
    s' = (t.root.prunedInorder keep).foldl (fun σ d => g d.key d.value σ) s := by
  rcases pushLeft_empty_refines_or_lost keep t.root with ⟨hR, hC⟩ | hl
  · have h := walkParents_continue_eq_foldl keep g _ _ _ _ _ hR hC
      (fun _ hx => ne_nil_of_mem_leftSpine keep hx) hok
    rwa [← List.append_nil (leftSpine keep t.root), pendingNodes_leftSpine, pendingNodes_nil,
      List.append_nil] at h
  · exact absurd hok (walkParents_continue_ne_ok_of_lost keep g _ _ _ _ hl)

/-- On a heap, the walk pruned at priority `h` reaches the nodes of priority below `h`.
Source: `src/stake/treap/tickettreap.cpp` `TicketTreap::forEachByHeight`
Kind: L -/
theorem prunedInorder_priority_eq_filter {t : BinaryTree TreapNode}
    (hh : IsMinHeap TreapNode.prio t) (h : UInt32) :
    t.prunedInorder (fun d => decide (d.priority < h)) =
      t.inorder.filter fun d => decide (d.priority < h) := by
  have hlt : (fun d : TreapNode => decide (d.priority < h)) = fun d => decide (d.prio < h.toNat) := by
    funext d
    exact decide_eq_decide.2 UInt32.lt_iff_toNat_lt
  rw [hlt, prunedInorder_eq_filter TreapNode.prio hh]

/-- **On a heap of any height, a returning `forEachByHeight` whose callback always continues has
folded over the nodes of priority below the bound, in key order.**
Source: `src/stake/treap/tickettreap.cpp` `TicketTreap::forEachByHeight`
Kind: L -/
theorem forEachByHeight_continue_eq_foldl {t : TicketTreap} (hh : IsMinHeap TreapNode.prio t.root)
    (h : UInt32) (g : Uint256 → Value → σ → σ) {s s' : σ}
    (hok : t.forEachByHeight h (fun k v σ => (true, g k v σ)) s = .ok s') :
    s' = (t.root.inorder.filter fun d => decide (d.priority < h)).foldl
      (fun σ d => g d.key d.value σ) s := by
  rw [← prunedInorder_priority_eq_filter hh]
  exact walk_continue_eq_foldl _ t g hok

end treap

end BwsCoin.Stake
