import Mathlib
import BwsCoin.Lib.BinaryTree

/-!
# Maps ordered by a comparator

A `std::map<κ, β, Compare>` as a binary search tree of entries that is searched and grown through
the Boolean comparator `lt` alone. Two keys neither of which is below the other are
*equivalent*. When `lt` is a strict weak order this is the equivalence of the order and the map
holds one entry for each class; nothing here assumes that it is one. This module names no
particular program.

* `find lt k t` — `std::map::find`: the first entry whose key is not below `k` (`lowerBound`),
  kept when `k` is not below its key either. A hit is the value of an entry whose key is
  equivalent to `k` (`find_eq_some`): an entry for `k` itself only when equivalent keys are
  equal.
* `insert lt k v t` — a new leaf for `k`, where the descent of `_M_get_insert_unique_pos` puts
  it. The tree is not rebalanced; rebalancing moves no entry in or out, and the entries are
  what the lemmas read (`mem_inorder_insert`).
* `memo lt k compute t` — look `k` up, else compute, store and return: a memo table. When
  equivalent keys are equal, a relation that holds of every entry and of every value the
  computation can give holds of the answer and of every entry afterwards (`memo_sound`).
  Otherwise a table of one entry answers every key equivalent to its own with that entry's
  value (`find_single_of_equiv`).
-/

namespace ComparatorMap

variable {κ β ε : Type} (lt : κ → κ → Bool)

/-- `_M_lower_bound`: the first entry in order whose key is not below `k`. The descent goes right
past each entry below `k`, and left past each other entry, which it keeps as the answer unless
one further left is found.
Source: none: infrastructure
Kind: D -/
def lowerBound (k : κ) : BinaryTree (κ × β) → Option (κ × β)
  | .nil => none
  | .node e l r => if lt e.1 k then lowerBound k r else (lowerBound k l).or (some e)

/-- `std::map::find(k)`: the value at `lowerBound k`, unless `k` is below its key.
Source: none: infrastructure
Kind: D -/
def find (k : κ) (t : BinaryTree (κ × β)) : Option β :=
  match lowerBound lt k t with
  | some e => if lt k e.1 then none else some e.2
  | none => none

/-- A new leaf `(k, v)`: the descent goes left past each entry `k` is below, right past the
others.
Source: none: infrastructure
Kind: D -/
def insert (k : κ) (v : β) : BinaryTree (κ × β) → BinaryTree (κ × β)
  | .nil => .node (k, v) .nil .nil
  | .node e l r => if lt k e.1 then .node e (insert k v l) r else .node e l (insert k v r)

/-- Look `k` up; on a miss run `compute` and store its value under `k`.
Source: none: infrastructure
Kind: D -/
def memo (k : κ) (compute : Except ε β) (t : BinaryTree (κ × β)) :
    Except ε (β × BinaryTree (κ × β)) :=
  match find lt k t with
  | some v => .ok (v, t)
  | none => compute >>= fun v => .ok (v, insert lt k v t)

/-! ## Search -/

/-- The entry `lowerBound` finds is in the tree and its key is not below `k`.
Source: none: infrastructure
Kind: L -/
theorem lowerBound_spec {k : κ} {e : κ × β} {t : BinaryTree (κ × β)}
    (h : lowerBound lt k t = some e) : e ∈ t.inorder ∧ lt e.1 k = false := by
  induction t with
  | nil => cases h
  | node a l r ihl ihr =>
    simp only [lowerBound] at h
    split_ifs at h with hak
    · obtain ⟨hmem, hek⟩ := ihr h
      exact ⟨by simp [hmem], hek⟩
    · rcases hl : lowerBound lt k l with _ | e'
      · -- nothing further left: the answer is this entry
        simp only [hl, Option.none_or, Option.some.injEq] at h
        subst h
        exact ⟨by simp, by simpa using hak⟩
      · simp only [hl, Option.some_or, Option.some.injEq] at h
        subst h
        obtain ⟨hmem, hek⟩ := ihl hl
        exact ⟨by simp [hmem], hek⟩

/-- A hit is the value of an entry whose key is equivalent to `k`.
Source: none: infrastructure
Kind: L -/
theorem find_eq_some {k : κ} {v : β} {t : BinaryTree (κ × β)} (h : find lt k t = some v) :
    ∃ e ∈ t.inorder, e.2 = v ∧ lt e.1 k = false ∧ lt k e.1 = false := by
  unfold find at h
  rcases hlb : lowerBound lt k t with _ | e
  · simp [hlb] at h
  · obtain ⟨hmem, hek⟩ := lowerBound_spec lt hlb
    cases hke : lt k e.1
    · simp only [hlb, hke, Bool.false_eq_true, if_false, Option.some.injEq] at h
      exact ⟨e, hmem, h, hek, hke⟩
    · simp [hlb, hke] at h

/-- A table of one entry answers every key equivalent to the entry's with its value.
Source: none: infrastructure
Kind: L -/
theorem find_single_of_equiv {a k : κ} (w : β) (h₁ : lt a k = false) (h₂ : lt k a = false) :
    find lt k (.node (a, w) .nil .nil) = some w := by
  simp [find, lowerBound, h₁, h₂]

/-! ## Insertion -/

/-- The entries after an insertion are the new one and the old ones.
Source: none: infrastructure
Kind: L -/
theorem mem_inorder_insert {k : κ} {v : β} {e : κ × β} {t : BinaryTree (κ × β)} :
    e ∈ (insert lt k v t).inorder ↔ e = (k, v) ∨ e ∈ t.inorder := by
  induction t with
  | nil => simp [insert]
  | node a l r ihl ihr =>
    simp only [insert]
    split_ifs
    · simp only [BinaryTree.inorder_node, List.mem_append, List.mem_cons, ihl, or_assoc]
    · simp only [BinaryTree.inorder_node, List.mem_append, List.mem_cons, ihr]
      exact (or_congr_right or_left_comm).trans or_left_comm

/-! ## Memo tables -/

section memo

variable {lt} {k : κ} {compute : Except ε β} {t : BinaryTree (κ × β)}

/-- Source: none: infrastructure. Kind: L -/
theorem memo_of_find_some {v : β} (h : find lt k t = some v) :
    memo lt k compute t = .ok (v, t) := by
  simp [memo, h]

/-- Source: none: infrastructure. Kind: L -/
theorem memo_of_find_none (h : find lt k t = none) :
    memo lt k compute t = (compute >>= fun v => .ok (v, insert lt k v t)) := by
  simp [memo, h]

/-- On an empty table the computation runs and its value is stored.
Source: none: infrastructure
Kind: L -/
theorem memo_nil {v : β} (h : compute = .ok v) :
    memo lt k compute .nil = .ok (v, .node (k, v) .nil .nil) := by
  subst h
  rfl

/-- A memo step fails only with the computation's own error.
Source: none: infrastructure
Kind: L -/
theorem memo_eq_error {e : ε} (h : memo lt k compute t = .error e) : compute = .error e := by
  rcases hf : find lt k t with _ | v
  · rw [memo_of_find_none hf] at h
    cases hc : compute with
    | error e' => rw [hc] at h; simpa [bind, Except.bind] using h
    | ok v => rw [hc] at h; cases h
  · rw [memo_of_find_some hf] at h
    cases h

/-- Every entry of the table satisfies `R`.
Source: none: infrastructure
Kind: D -/
def Sound (R : κ → β → Prop) (t : BinaryTree (κ × β)) : Prop := ∀ e ∈ t.inorder, R e.1 e.2

/-- Source: none: infrastructure. Kind: L -/
theorem sound_nil (R : κ → β → Prop) : Sound R (.nil : BinaryTree (κ × β)) := by
  simp [Sound]

/-- **Soundness of a memo step.** When equivalent keys are equal, a hit is an entry for `k`
itself; so if every entry satisfies `R`, and so does every value the computation can give, the
answer satisfies `R` and so does every entry afterwards.
Source: none: infrastructure
Kind: L -/
theorem memo_sound {R : κ → β → Prop} {v : β} {t' : BinaryTree (κ × β)}
    (hlt : ∀ a b, lt a b = false → lt b a = false → a = b) (ht : Sound R t)
    (hc : ∀ v, compute = .ok v → R k v) (h : memo lt k compute t = .ok (v, t')) :
    R k v ∧ Sound R t' := by
  rcases hf : find lt k t with _ | w
  · -- a miss stores the computed value beside the old entries
    rw [memo_of_find_none hf] at h
    cases hcomp : compute with
    | error e => rw [hcomp] at h; cases h
    | ok w =>
      rw [hcomp] at h
      simp only [bind, Except.bind, Except.ok.injEq, Prod.mk.injEq] at h
      obtain ⟨rfl, rfl⟩ := h
      refine ⟨hc w hcomp, fun e he => ?_⟩
      rcases (mem_inorder_insert lt).mp he with rfl | he
      · exact hc w hcomp
      · exact ht e he
  · -- a hit is an entry with an equivalent key, which is `k` itself
    rw [memo_of_find_some hf] at h
    simp only [Except.ok.injEq, Prod.mk.injEq] at h
    obtain ⟨rfl, rfl⟩ := h
    obtain ⟨e, he, rfl, h₁, h₂⟩ := find_eq_some lt hf
    have hek : e.1 = k := hlt _ _ h₁ h₂
    exact ⟨hek ▸ ht e he, ht⟩

end memo

end ComparatorMap
