import Mathlib
import BwsCoin.Lib.Stack

/-!
# The parent stack of the treap walks

`TicketTreap::forEach` and `forEachByHeight` (`src/stake/treap/tickettreap.cpp`) keep the
nodes still to visit on a `ParentStack` (`src/stake/treap/treapnode.cpp`): a fixed array of
`StaticDepth = 128` slots and an overflow vector for the items above them. `pop` clears the
slot it reads but never shrinks the vector, and `push` above the array appends to the vector
wherever `index` stands.

The stack is abstracted as in a cursor machine: its first `index` slots, array then vector, are
the list stack bottom first (`Refines`). `pop`, `at` and `len` keep that relation for every
state; `push` keeps it into the array, and above it when the vector holds exactly the items
above the array (`Tight`).

* `run_eq_listStack_of_guarded` — every run whose pushes above the array find the vector
  without a popped slot shows what a list stack shows;
* `run_eq_listStack_of_no_overflow_pop` — in particular every run from the empty stack that
  never pops above depth `StaticDepth`, however deep it grows;
* `parentStack_loses_push_after_overflow_pop` — and a pop above `StaticDepth` followed by a push
  puts the pushed node one slot past the top: `at(0)` and `pop()` then return `nullptr`.
-/

namespace BwsCoin.Stake

open Stack

/-- `StaticDepth`: the slots of the fixed array of a `ParentStack`.
Source: `src/stake/treap/treapnode.h` `StaticDepth`
Kind: D -/
def staticDepth : Nat := 128

/-- `ParentStack`: `index` items, the first `StaticDepth` in the fixed array `items`, the others
in `overflow`; a slot holds a node pointer, `none` for `nullptr`. The vector is never shorter
than the items above the array.
Source: `src/stake/treap/treapnode.h` `class ParentStack`
Kind: D
Fidelity: exact; the `int` index is a natural number, as no stack of `2^31` nodes is
represented -/
structure ParentStack (α : Type) where
  index : Nat
  items : List (Option α)
  overflow : List (Option α)
  items_length : items.length = staticDepth
  index_le : index ≤ staticDepth + overflow.length

namespace ParentStack

variable {α : Type}

/-- `ParentStack()`: no items, and the array value-initialised to `nullptr`.
Source: `src/stake/treap/treapnode.cpp` `ParentStack::ParentStack`
Kind: D -/
def empty : ParentStack α :=
  ⟨0, List.replicate staticDepth none, [], List.length_replicate, Nat.zero_le _⟩

/-- `len()`. Source: `src/stake/treap/treapnode.cpp` `ParentStack::len`. Kind: D -/
def len (s : ParentStack α) : Nat := s.index

/-- `at(n)`: the item `n` below the top, `nullptr` below the bottom.
Source: `src/stake/treap/treapnode.cpp` `ParentStack::at`
Kind: D
Fidelity: exact for the depths `n ≥ 0` the callers pass; `index ≤ StaticDepth + overflow.size()`
keeps every read in range -/
def atDepth (s : ParentStack α) (n : Nat) : Option α :=
  if s.index < n + 1 then none
  else
    let idx := s.index - n - 1
    if idx < staticDepth then s.items.getD idx none
    else s.overflow.getD (idx - staticDepth) none

/-- `pop()`: the top item, whose slot is cleared; `nullptr` on an empty stack.
Source: `src/stake/treap/treapnode.cpp` `ParentStack::pop`
Kind: D -/
def pop (s : ParentStack α) : Option α × ParentStack α :=
  if s.index = 0 then (none, s)
  else if h : s.index - 1 < staticDepth then
    (s.items.getD (s.index - 1) none,
      ⟨s.index - 1, s.items.set (s.index - 1) none, s.overflow,
        by rw [List.length_set, s.items_length], by have := s.index_le; omega⟩)
  else
    (s.overflow.getD (s.index - 1 - staticDepth) none,
      ⟨s.index - 1, s.items, s.overflow.set (s.index - 1 - staticDepth) none, s.items_length,
        by have := s.index_le; rw [List.length_set]; omega⟩)

/-- `push(node)`: into the array below `StaticDepth`, else appended to the overflow vector.
Source: `src/stake/treap/treapnode.cpp` `ParentStack::push`
Kind: D
Fidelity: exact on non-null nodes, the only ones the treap walks push; `reserve` does not
change the vector's contents -/
def push (s : ParentStack α) (node : α) : ParentStack α :=
  if h : s.index < staticDepth then
    ⟨s.index + 1, s.items.set s.index (some node), s.overflow,
      by rw [List.length_set, s.items_length], by omega⟩
  else
    ⟨s.index + 1, s.items, s.overflow ++ [some node], s.items_length,
      by have := s.index_le; rw [List.length_append, List.length_singleton]; omega⟩

/-- The four operations as a stack implementation.
Source: `src/stake/treap/treapnode.h` `class ParentStack`
Kind: D -/
def impl : Impl (ParentStack α) α := ⟨push, pop, atDepth, len⟩

/-! ## The slots -/

/-- The slots, the array then the vector.
Source: none: infrastructure
Kind: D -/
def slots (s : ParentStack α) : List (Option α) := s.items ++ s.overflow

/-- Source: `src/stake/treap/treapnode.h` `class ParentStack`. Kind: L -/
theorem length_slots (s : ParentStack α) : s.slots.length = staticDepth + s.overflow.length := by
  rw [slots, List.length_append, s.items_length]

/-- A read of the array below `StaticDepth`, and of the vector from it on, is a read of the
slots.
Source: `src/stake/treap/treapnode.cpp` `ParentStack::at`, `ParentStack::pop`
Kind: L -/
theorem getD_slots (s : ParentStack α) (i : Nat) :
    (if i < staticDepth then s.items.getD i none else s.overflow.getD (i - staticDepth) none) =
      s.slots.getD i none := by
  unfold slots
  split_ifs with h
  · rw [List.getD_append _ _ _ _ (by rw [s.items_length]; exact h)]
  · rw [List.getD_append_right _ _ _ _ (by rw [s.items_length]; omega), s.items_length]

/-- Source: `src/stake/treap/treapnode.h` `ParentStack::at`. Kind: L -/
theorem atDepth_eq (s : ParentStack α) (n : Nat) :
    s.atDepth n = if s.index < n + 1 then none else s.slots.getD (s.index - n - 1) none := by
  unfold atDepth
  split_ifs with h
  · rfl
  · exact getD_slots s _

/-- `pop` of a nonempty stack reads the top slot and clears it.
Source: `src/stake/treap/treapnode.cpp` `ParentStack::pop`
Kind: L -/
theorem pop_eq (s : ParentStack α) (h : s.index ≠ 0) :
    (s.pop).1 = s.slots.getD (s.index - 1) none ∧ (s.pop).2.index = s.index - 1 ∧
      (s.pop).2.slots = s.slots.set (s.index - 1) none := by
  unfold pop
  rw [if_neg h]
  by_cases hi : s.index - 1 < staticDepth
  · rw [dif_pos hi]
    refine ⟨?_, rfl, ?_⟩
    · show s.items.getD (s.index - 1) none = _
      rw [← getD_slots, if_pos hi]
    · show s.items.set (s.index - 1) none ++ s.overflow = _
      rw [slots, List.set_append, s.items_length, if_pos hi]
  · rw [dif_neg hi]
    refine ⟨?_, rfl, ?_⟩
    · show s.overflow.getD (s.index - 1 - staticDepth) none = _
      rw [← getD_slots, if_neg hi]
    · show s.items ++ s.overflow.set (s.index - 1 - staticDepth) none = _
      rw [slots, List.set_append, s.items_length, if_neg hi]

/-- `push` writes the slot at `index` in the array, and appends to the slots above it.
Source: `src/stake/treap/treapnode.cpp` `ParentStack::push`
Kind: L -/
theorem push_eq (s : ParentStack α) (x : α) :
    (s.push x).index = s.index + 1 ∧
      (s.push x).slots =
        if s.index < staticDepth then s.slots.set s.index (some x) else s.slots ++ [some x] := by
  unfold push
  by_cases hi : s.index < staticDepth
  · rw [dif_pos hi, if_pos hi]
    exact ⟨rfl, by simp only [slots, List.set_append, s.items_length, if_pos hi]⟩
  · rw [dif_neg hi, if_neg hi]
    exact ⟨rfl, by simp only [slots, List.append_assoc]⟩

/-! ## The stack the slots hold -/

/-- The first `index` slots are the items of the list stack `l`, bottom first.
Source: none: infrastructure
Kind: D -/
structure Refines (s : ParentStack α) (l : List α) : Prop where
  index_eq : s.index = l.length
  take_slots : s.slots.take s.index = l.reverse.map some

/-- The vector holds exactly the items above the array: no slot a `pop` left behind.
Source: none: infrastructure
Kind: D -/
def Tight (s : ParentStack α) : Prop := s.overflow.length = s.index - staticDepth

/-- The fresh stack stands for the empty list.
Source: `src/stake/treap/treapnode.h` `ParentStack::ParentStack`
Kind: L -/
theorem refines_empty : Refines (empty : ParentStack α) [] :=
  ⟨rfl, by rw [show (empty : ParentStack α).index = 0 from rfl, List.take_zero]; rfl⟩

/-- The fresh stack has no overflow slots.
Source: `src/stake/treap/treapnode.h` `ParentStack::ParentStack`
Kind: L -/
theorem tight_empty : Tight (empty : ParentStack α) := by simp [Tight, empty]

section refines

variable {s : ParentStack α} {l : List α}

/-- The slot of depth `i` from the bottom, below `index`, is the list's.
Source: none: infrastructure
Kind: L -/
theorem Refines.getElem?_slots (h : Refines s l) {i : Nat} (hi : i < s.index) :
    s.slots[i]? = l.reverse[i]?.map some := by
  have := congrArg (·[i]?) h.take_slots
  simpa only [List.getElem?_take_of_lt hi, List.getElem?_map] using this

/-- `at(n)` reads the list's item `n` below the top.
Source: `src/stake/treap/treapnode.cpp` `ParentStack::at`
Kind: L -/
theorem Refines.atDepth (h : Refines s l) (n : Nat) : s.atDepth n = l[n]? := by
  rw [atDepth_eq]
  have hlen := h.index_eq
  split_ifs with hn
  · rw [List.getElem?_eq_none (by omega)]
  · rw [List.getD_eq_getElem?_getD, h.getElem?_slots (by omega),
      List.getElem?_reverse (by omega), show l.length - 1 - (s.index - n - 1) = n by omega]
    cases l[n]? <;> rfl

/-- `pop()` returns the list's top and leaves its tail.
Source: `src/stake/treap/treapnode.cpp` `ParentStack::pop`
Kind: L -/
theorem Refines.pop (h : Refines s l) : (s.pop).1 = l.head? ∧ Refines (s.pop).2 l.tail := by
  cases l with
  | nil =>
    have h0 : s.index = 0 := h.index_eq
    have hpop : s.pop = (none, s) := by rw [ParentStack.pop, if_pos h0]
    rw [hpop]
    exact ⟨rfl, h⟩
  | cons x t =>
    have hi : s.index = t.length + 1 := h.index_eq
    obtain ⟨h1, h2, h3⟩ := pop_eq s (by omega)
    -- the top slot holds `x`
    have hx : s.slots[t.length]? = some (some x) := by
      rw [h.getElem?_slots (by omega), List.reverse_cons,
        List.getElem?_append_right (by simp), List.length_reverse, Nat.sub_self]
      rfl
    refine ⟨?_, ⟨?_, ?_⟩⟩
    · rw [h1, hi, Nat.add_sub_cancel, List.getD_eq_getElem?_getD, hx]
      rfl
    · rw [h2, hi, Nat.add_sub_cancel, List.tail_cons]
    · have htake := h.take_slots
      rw [hi, List.take_add_one, hx, List.reverse_cons, List.map_append] at htake
      rw [h2, h3, hi, Nat.add_sub_cancel, List.take_set,
        List.set_eq_of_length_le (by simp), List.tail_cons]
      simpa using htake

/-- `push(x)` puts `x` on top, when it writes the array or the vector holds no popped slot.
Source: `src/stake/treap/treapnode.cpp` `ParentStack::push`
Kind: L -/
theorem Refines.push (h : Refines s l) (hg : s.index < staticDepth ∨ Tight s) (x : α) :
    Refines (s.push x) (x :: l) := by
  obtain ⟨h1, h2⟩ := push_eq s x
  have hlen := s.length_slots
  refine ⟨by rw [h1, h.index_eq, List.length_cons], ?_⟩
  rw [h1, h2, List.reverse_cons, List.map_append, ← h.take_slots]
  split_ifs with hi
  · -- into the array: the slot at `index` is the next one
    rw [List.take_add_one, List.take_set, List.set_eq_of_length_le (by simp),
      List.getElem?_set_self (by omega)]
    rfl
  · -- onto the vector: with no popped slot it is the slot at `index`
    have ht : Tight s := hg.resolve_left hi
    unfold Tight at ht
    rw [List.take_of_length_le (by simp; omega), List.take_of_length_le (by omega)]
    rfl

/-- A push keeps the overflow slots tight.
Source: `src/stake/treap/treapnode.h` `ParentStack::push`
Kind: L -/
theorem Tight.push (h : Tight s) (x : α) : Tight (s.push x) := by
  unfold Tight at h ⊢
  unfold ParentStack.push
  split_ifs with hi
  · simp only
    omega
  · simp only [List.length_append, List.length_singleton]
    omega

/-- A pop at depth `StaticDepth` or below leaves the vector as it was.
Source: `src/stake/treap/treapnode.cpp` `ParentStack::pop`
Kind: L -/
theorem Tight.pop (h : Tight s) (hi : s.index ≤ staticDepth) : Tight (s.pop).2 := by
  unfold Tight at h ⊢
  unfold ParentStack.pop
  split_ifs with h0 h1
  · exact h
  · simp only
    omega
  · omega

end refines

/-! ## Cleared slots

A `pop` clears the slot it reads. While every slot from `index` up is clear, an unguarded push
above the array lands past a cleared slot, which then stands below `index`; the next `pop` that
reaches it reads `nullptr`. -/

section cleared

variable {s : ParentStack α}

/-- Every slot at or above `index` is `nullptr`.
Source: none: infrastructure
Kind: D -/
def Clear (s : ParentStack α) : Prop := ∀ j, s.index ≤ j → s.slots.getD j none = none

/-- A slot below `index` is `nullptr`: the stack has lost an item.
Source: none: infrastructure
Kind: D -/
def Lost (s : ParentStack α) : Prop := ∃ j < s.index, s.slots.getD j none = none

/-- The fresh stack has no slot set.
Source: `src/stake/treap/treapnode.h` `ParentStack::ParentStack`
Kind: L -/
theorem clear_empty : Clear (empty : ParentStack α) := by
  intro j _
  simp only [slots, empty, List.append_nil, List.getD_eq_getElem?_getD, List.getElem?_replicate]
  split <;> rfl

/-- Source: `src/stake/treap/treapnode.h` `class ParentStack`. Kind: L -/
theorem index_le_length_slots (s : ParentStack α) : s.index ≤ s.slots.length := by
  rw [length_slots]
  exact s.index_le

/-- A push keeps the slots below `index`.
Source: `src/stake/treap/treapnode.cpp` `ParentStack::push`
Kind: L -/
theorem getD_slots_push {j : Nat} (hj : j < s.index) (x : α) :
    (s.push x).slots.getD j none = s.slots.getD j none := by
  have hlen := index_le_length_slots s
  rw [(push_eq s x).2]
  split_ifs
  · rw [List.getD_eq_getElem?_getD, List.getElem?_set_ne (by omega), ← List.getD_eq_getElem?_getD]
  · rw [List.getD_append _ _ _ _ (by omega)]

/-- A pop keeps the slots other than the one it clears.
Source: `src/stake/treap/treapnode.cpp` `ParentStack::pop`
Kind: L -/
theorem getD_slots_pop (h : s.index ≠ 0) {j : Nat} (hj : j ≠ s.index - 1) :
    (s.pop).2.slots.getD j none = s.slots.getD j none := by
  rw [(pop_eq s h).2.2, List.getD_eq_getElem?_getD, List.getElem?_set_ne (by omega),
    ← List.getD_eq_getElem?_getD]

/-- A pop clears the slot it reads, so the slots above the index stay clear.
Source: `src/stake/treap/treapnode.h` `ParentStack::pop`
Kind: L -/
theorem Clear.pop (hc : Clear s) : Clear (s.pop).2 := by
  by_cases h0 : s.index = 0
  · rw [ParentStack.pop, if_pos h0]
    exact hc
  · obtain ⟨-, hi, hsl⟩ := pop_eq s h0
    intro j hj
    rw [hi] at hj
    by_cases hjt : j = s.index - 1
    · -- the slot the pop cleared
      rw [hsl, hjt, List.getD_eq_getElem?_getD, List.getElem?_set_self']
      cases s.slots[s.index - 1]? <;> rfl
    · rw [getD_slots_pop h0 hjt]
      exact hc j (by omega)

/-- A push into the array, or onto a vector without popped slots, keeps the slots above `index`
clear.
Source: `src/stake/treap/treapnode.cpp` `ParentStack::push`
Kind: L -/
theorem Clear.push (hc : Clear s) (hg : s.index < staticDepth ∨ Tight s) (x : α) :
    Clear (s.push x) := by
  obtain ⟨hi, hsl⟩ := push_eq s x
  intro j hj
  rw [hi] at hj
  rw [hsl]
  split_ifs with h
  · rw [List.getD_eq_getElem?_getD, List.getElem?_set_ne (by omega), ← List.getD_eq_getElem?_getD]
    exact hc j (by omega)
  · -- the vector ends at `index`, so the slot of `j` is past the end
    have ht : Tight s := hg.resolve_left h
    have hlen : s.slots.length = s.index := by
      unfold Tight at ht
      rw [length_slots]
      omega
    rw [List.getD_eq_getElem?_getD, List.getElem?_eq_none (by simp; omega)]
    rfl

/-- **An unguarded push loses an item**: above the array, on a vector that still holds a popped
slot, the node is appended past it and the cleared slot comes below `index`.
Source: `src/stake/treap/treapnode.cpp` `ParentStack::push`
Kind: L -/
theorem lost_push_of_clear (hc : Clear s) (hg : ¬ (s.index < staticDepth ∨ Tight s)) (x : α) :
    Lost (s.push x) := by
  obtain ⟨hi, hsl⟩ := push_eq s x
  have hlt : s.index < s.slots.length := by
    have := s.index_le
    unfold Tight at hg
    rw [length_slots]
    omega
  refine ⟨s.index, by omega, ?_⟩
  rw [hsl, if_neg (fun h => hg (Or.inl h)), List.getD_append _ _ _ _ hlt]
  exact hc s.index le_rfl

/-- A push above a cleared slot leaves it cleared: the loss persists.
Source: `src/stake/treap/treapnode.h` `ParentStack::push`
Kind: L -/
theorem Lost.push (hl : Lost s) (x : α) : Lost (s.push x) := by
  obtain ⟨j, hj, hnone⟩ := hl
  refine ⟨j, by rw [(push_eq s x).1]; omega, ?_⟩
  rw [getD_slots_push hj]
  exact hnone

/-- A pop from a stack that lost an item reads `nullptr`, or leaves a stack that still has.
Source: `src/stake/treap/treapnode.cpp` `ParentStack::pop`
Kind: L -/
theorem Lost.pop (hl : Lost s) : (s.pop).1 = none ∨ Lost (s.pop).2 := by
  obtain ⟨j, hj, hnone⟩ := hl
  obtain ⟨hv, hi, -⟩ := pop_eq s (by omega)
  by_cases hjt : j = s.index - 1
  · left
    rw [hv, ← hjt]
    exact hnone
  · right
    refine ⟨j, by omega, ?_⟩
    rw [getD_slots_pop (by omega) hjt]
    exact hnone

end cleared

/-! ## Runs -/

/-- The guard of the refinement: a push above the array finds the vector without a popped slot.
Source: none: infrastructure
Kind: D -/
def PushGuard (s : ParentStack α) (_ : List α) (op : Op α) : Prop :=
  ∀ a, op = .push a → s.index < staticDepth ∨ Tight s

/-- Each guarded operation keeps the relation and shows what the list stack shows.
Source: `src/stake/treap/treapnode.cpp` `ParentStack`
Kind: L -/
theorem simulatesStep : SimulatesStep impl (Refines (α := α)) PushGuard := by
  intro s l op hR hG
  cases op with
  | push a => exact ⟨rfl, hR.push (hG a rfl) a⟩
  | pop =>
    obtain ⟨h1, h2⟩ := hR.pop
    exact ⟨show Obs.elem (s.pop).1 = Obs.elem l.head? by rw [h1], h2⟩
  | peek n => exact ⟨show Obs.elem (s.atDepth n) = Obs.elem l[n]? by rw [hR.atDepth n], hR⟩
  | len => exact ⟨show Obs.len s.index = Obs.len l.length by rw [hR.index_eq], hR⟩

/-- **The parent stack is a list stack on every run whose pushes above the array find the
vector without a popped slot**: `len()`, `pop()` and `at(n)` show what they show on the list
stack the slots refine.
Source: `src/stake/treap/treapnode.cpp` `ParentStack::len`, `at`, `pop`, `push`
Kind: L -/
theorem run_eq_listStack_of_guarded {ops : List (Op α)} {s : ParentStack α} {l : List α}
    (hR : Refines s l) (hG : Guarded impl PushGuard s l ops) :
    impl.run s ops = listStack.run l ops :=
  run_eq_of_simulatesStep simulatesStep hR hG

/-- The guard of the runs that never pop above depth `StaticDepth`.
Source: none: infrastructure
Kind: D -/
def NoOverflowPop (_ : ParentStack α) (l : List α) (op : Op α) : Prop :=
  op = .pop → l.length ≤ staticDepth

/-- Runs without a pop above `StaticDepth` keep the vector without popped slots.
Source: `src/stake/treap/treapnode.cpp` `ParentStack::pop`, `push`
Kind: L -/
theorem simulatesStep_tight :
    SimulatesStep impl (fun s l => Refines (α := α) s l ∧ Tight s) NoOverflowPop := by
  intro s l op ⟨hR, hT⟩ hG
  obtain ⟨hobs, hR'⟩ := simulatesStep s l op hR (fun a _ => Or.inr hT)
  refine ⟨hobs, hR', ?_⟩
  cases op with
  | push a => exact hT.push a
  | pop => exact hT.pop (by rw [hR.index_eq]; exact hG rfl)
  | peek n => exact hT
  | len => exact hT

/-- **Every run from the empty stack that never pops above depth `StaticDepth` shows what the
list stack shows**, however deep it grows.
Source: `src/stake/treap/treapnode.cpp` `ParentStack`
Kind: T -/
theorem run_eq_listStack_of_no_overflow_pop {ops : List (Op α)}
    (hG : Guarded impl NoOverflowPop empty [] ops) :
    impl.run empty ops = listStack.run [] ops :=
  run_eq_of_simulatesStep simulatesStep_tight ⟨refines_empty, tight_empty⟩ hG

/-- Two hundred pushes, past `StaticDepth`, then a read and the length, with no pop above it.
Source: `src/stake/treap/treapnode.h` `class ParentStack`
Kind: W -/
theorem run_eq_listStack_of_no_overflow_pop_deep :
    impl.run empty ((List.range 200).map Op.push ++ [Op.peek 150, Op.len]) =
      listStack.run [] ((List.range 200).map Op.push ++ [Op.peek 150, Op.len]) :=
  run_eq_listStack_of_no_overflow_pop (Guarded.of_forall_mem (fun op hop _ _ hpop => by
    subst hpop
    simp at hop) _ _)

/-- Pushing a list onto a stack without popped slots keeps it so, with the list on top, last
element first.
Source: `src/stake/treap/treapnode.cpp` `ParentStack::push`
Kind: L -/
theorem exec_pushes : ∀ (xs : List α) {s : ParentStack α} {l : List α}, Refines s l → Tight s →
    Refines (impl.exec s (xs.map Op.push)) (xs.reverse ++ l) ∧
      Tight (impl.exec s (xs.map Op.push))
  | [], _, _, hR, hT => ⟨hR, hT⟩
  | x :: xs, s, l, hR, hT => by
    have h := exec_pushes xs (hR.push (Or.inr hT) x) (hT.push x)
    rw [List.reverse_cons, List.append_assoc, List.singleton_append]
    exact h

/-- **A pop above `StaticDepth` followed by a push loses the pushed node.** After more than
`StaticDepth` pushes, a pop clears the top slot of the vector without shrinking it, and the next
push appends one slot further up: `at(0)` and `pop()` then read the cleared slot and return
`nullptr`, where the list stack returns the pushed node.
Source: `src/stake/treap/treapnode.cpp` `ParentStack::at`, `pop`, `push`
Kind: T -/
theorem parentStack_loses_push_after_overflow_pop (xs : List α) (hxs : staticDepth < xs.length)
    (x : α) :
    impl.run empty (xs.map Op.push ++ [Op.pop, Op.push x, Op.peek 0, Op.pop]) =
        List.replicate xs.length Obs.unit ++
          [Obs.elem xs.getLast?, Obs.unit, Obs.elem none, Obs.elem none] ∧
      listStack.run [] (xs.map Op.push ++ [Op.pop, Op.push x, Op.peek 0, Op.pop]) =
        List.replicate xs.length Obs.unit ++
          [Obs.elem xs.getLast?, Obs.unit, Obs.elem (some x), Obs.elem (some x)] := by
  rw [Impl.run_append, Impl.run_append, Impl.run_map_push, Impl.run_map_push,
    listStack_exec_pushes]
  refine ⟨?_, ?_⟩
  · obtain ⟨hR, hT⟩ := exec_pushes xs refines_empty tight_empty
    generalize impl.exec empty (xs.map Op.push) = s₁ at hR hT ⊢
    have hi₁ : s₁.index = xs.length := by rw [hR.index_eq, List.append_nil, List.length_reverse]
    have hlen₁ : s₁.slots.length = xs.length := by
      unfold Tight at hT
      rw [length_slots]
      omega
    obtain ⟨hpop, -⟩ := hR.pop
    obtain ⟨-, hi₂, hslots₂⟩ := pop_eq s₁ (by omega)
    obtain ⟨hi₃, hslots₃⟩ := push_eq (s₁.pop).2 x
    -- the slot `pop` cleared is the one the two reads after the push see
    have hread : ((s₁.pop).2.push x).slots.getD (xs.length - 1) none = none := by
      rw [hslots₃, if_neg (by omega), hslots₂, List.getD_append _ _ _ _ (by simp; omega), hi₁,
        List.getD_eq_getElem?_getD, List.getElem?_set_self (by omega)]
      rfl
    have hpeek : ((s₁.pop).2.push x).atDepth 0 = none := by
      rw [atDepth_eq, if_neg (by omega), hi₃, hi₂, hi₁, show xs.length - 1 + 1 - 0 - 1 = xs.length - 1 by omega, hread]
    have hpop' : (((s₁.pop).2.push x).pop).1 = none := by
      rw [(pop_eq _ (by omega)).1, hi₃, hi₂, hi₁, show xs.length - 1 + 1 - 1 = xs.length - 1 by omega,
        hread]
    show List.replicate xs.length Obs.unit ++ [Obs.elem (s₁.pop).1, Obs.unit,
      Obs.elem (((s₁.pop).2.push x).atDepth 0), Obs.elem (((s₁.pop).2.push x).pop).1] = _
    rw [hpop, hpeek, hpop', List.append_nil, List.head?_reverse]
  · simp [Impl.run, Impl.step, listStack, List.head?_reverse]

/-- One hundred and twenty-nine pushes, a pop, a push: the pushed item is lost.
Source: `src/stake/treap/treapnode.h` `ParentStack::pop`, `ParentStack::push`
Kind: W -/
theorem parentStack_loses_push_after_overflow_pop_129 :
    impl.run empty ((List.range 129).map Op.push ++ [Op.pop, Op.push 129, Op.peek 0, Op.pop]) =
        List.replicate (List.range 129).length Obs.unit ++
          [Obs.elem (List.range 129).getLast?, Obs.unit, Obs.elem none, Obs.elem none] ∧
      listStack.run [] ((List.range 129).map Op.push ++ [Op.pop, Op.push 129, Op.peek 0, Op.pop]) =
        List.replicate (List.range 129).length Obs.unit ++
          [Obs.elem (List.range 129).getLast?, Obs.unit, Obs.elem (some 129), Obs.elem (some 129)] :=
  parentStack_loses_push_after_overflow_pop (List.range 129) (by simp [staticDepth]) 129

end ParentStack

end BwsCoin.Stake
