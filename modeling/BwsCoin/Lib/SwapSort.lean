import Mathlib

/-!
# Ordering a list by swapping the first pair out of order

A loop that, while some element stands before an element it must follow (`r a b`: `a` must come
after `b`), swaps the first such pair (the first position `i`, then the first `j > i`) and starts
over, at most `w` times. This module names no particular program.

* `firstSwap r l` — the first such pair of positions; there is none exactly when `l` is
  `Pairwise` free of such pairs (`firstSwap_eq_none_iff`), and otherwise the list is
  `pre ++ a :: (mid ++ b :: post)` with `r a b`, which the swap turns into
  `pre ++ b :: (mid ++ a :: post)` (`firstSwap_eq_some`).
* `swapLoop r w l` — the loop with its watchdog `w`, one less after each swap; it stops with the
  watchdog at `0` when that runs out.
* `inversions D l` — the pairs of positions `p < q` with `D l[p] l[q]`. A swap can put an
  element `c` between the two out of order with `a` or with `b`, so the pairs out of order under
  `r` alone may grow; under the transitive closure `D` of `r`, each such new pair is paid for by
  one that the swap undoes (`inversions_swap_lt`). On a list on which `r` has no cycle the loop
  therefore swaps fewer times than the list has inversions at the start, fewer than
  `2 ^ l.length` (`inversions_lt_two_pow`), and stops with a permutation of the list free of
  pairs out of order and with watchdog to spare (`swapLoop_two_pow`).
-/

namespace SwapSort

variable {α : Type} (r : α → α → Bool)

/-- The first pair of positions `i < j` with `r l[i] l[j]`: the least `i`, then the least `j`.
Source: none: infrastructure
Kind: D -/
def firstSwap : List α → Option (Nat × Nat)
  | [] => none
  | a :: l =>
    match l.findIdx? (r a) with
    | some j => some (0, j + 1)
    | none => (firstSwap l).map fun (i, j) => (i + 1, j + 1)

/-- `std::swap(l[i], l[j])`, for positions in the list.
Source: none: infrastructure
Kind: D -/
def swapAt (l : List α) (i j : Nat) : List α :=
  match l[i]?, l[j]? with
  | some a, some b => (l.set i b).set j a
  | _, _ => l

/-- The swap loop with its watchdog `w`: while a pair is out of order, swap the first one and
count the watchdog down; the loop stops when no pair is out of order, or with the watchdog at `0`
when it runs out.
Source: none: infrastructure
Kind: D -/
def swapLoop : Nat → List α → Nat × List α
  | 0, l => (0, l)
  | w + 1, l =>
    match firstSwap r l with
    | none => (w + 1, l)
    | some (i, j) => swapLoop w (swapAt l i j)

/-- `r` between elements of `l₀`.
Source: none: infrastructure
Kind: D -/
def RelOn (l₀ : List α) (x y : α) : Prop := x ∈ l₀ ∧ y ∈ l₀ ∧ r x y = true

/-- No chain of `r` steps between elements of `l₀` leads from an element back to itself.
Source: none: infrastructure
Kind: D -/
def AcyclicOn (l₀ : List α) : Prop := ∀ a, ¬ Relation.TransGen (RelOn r l₀) a a

/-! ## The first pair out of order -/

/-- Source: none: infrastructure. Kind: L -/
theorem swapAt_cons_succ (a : α) (l : List α) (i j : Nat) :
    swapAt (a :: l) (i + 1) (j + 1) = a :: swapAt l i j := by
  unfold swapAt
  simp only [List.getElem?_cons_succ]
  split <;> simp_all

/-- No pair is out of order exactly when no element stands before one it must follow.
Source: none: infrastructure
Kind: L -/
theorem firstSwap_eq_none_iff {l : List α} :
    firstSwap r l = none ↔ l.Pairwise (fun a b => r a b = false) := by
  induction l with
  | nil => simp [firstSwap]
  | cons a l ih =>
    rw [List.pairwise_cons, ← ih, ← List.findIdx?_eq_none_iff]
    simp only [firstSwap]
    cases l.findIdx? (r a) <;> simp

/-- The first pair out of order: the list is `pre ++ a :: (mid ++ b :: post)` with `r a b`, and
the swap exchanges `a` and `b`.
Source: none: infrastructure
Kind: L -/
theorem firstSwap_eq_some {l : List α} {i j : Nat} (h : firstSwap r l = some (i, j)) :
    ∃ pre a mid b post, l = pre ++ a :: (mid ++ b :: post) ∧ r a b = true ∧
      swapAt l i j = pre ++ b :: (mid ++ a :: post) := by
  induction l generalizing i j with
  | nil => cases h
  | cons a l ih =>
    unfold firstSwap at h
    rcases hj : l.findIdx? (r a) with _ | j'
    · -- the head is in order: the pair is in the tail, one position on
      simp only [hj, Option.map_eq_some_iff, Prod.exists, Prod.mk.injEq] at h
      obtain ⟨i', j'', hf, rfl, rfl⟩ := h
      obtain ⟨pre, a', mid, b, post, hl, hab, hswap⟩ := ih hf
      refine ⟨a :: pre, a', mid, b, post, by simp [hl], hab, ?_⟩
      rw [swapAt_cons_succ, hswap, List.cons_append]
    · -- the head is out of order with the element at `j' + 1`
      simp only [hj, Option.some.injEq, Prod.mk.injEq] at h
      obtain ⟨rfl, rfl⟩ := h
      obtain ⟨hlt, hr, -⟩ := List.findIdx?_eq_some_iff_getElem.mp hj
      have hsplit := List.set_eq_take_append_cons_drop (l := l) (i := j') (a := a)
      refine ⟨[], a, l.take j', l[j'], l.drop (j' + 1), ?_, hr, ?_⟩
      · simp
      · simp [swapAt, hlt, hsplit]

/-- Exchanging two elements of a list permutes it.
Source: none: infrastructure
Kind: L -/
theorem perm_exchange (mid post : List α) (a b : α) :
    (b :: (mid ++ a :: post)).Perm (a :: (mid ++ b :: post)) :=
  calc List.Perm (b :: (mid ++ a :: post)) (b :: a :: (mid ++ post)) := List.perm_middle.cons b
    List.Perm _ (a :: b :: (mid ++ post)) := List.Perm.swap a b _
    List.Perm _ (a :: (mid ++ b :: post)) := List.perm_middle.symm.cons a

/-! ## Inversions -/

section inversions

variable (D : α → α → Prop) [DecidableRel D]

/-- The pairs of positions `p < q` with `D l[p] l[q]`: for each element, the later ones it is
above.
Source: none: infrastructure
Kind: D -/
def inversions : List α → Nat
  | [] => 0
  | a :: l => l.countP (fun b => D a b) + inversions l

/-- The pairs of a concatenation: those within each part, and those across, from each element of
the first part to the second.
Source: none: infrastructure
Kind: L -/
theorem inversions_append (M L : List α) :
    inversions D (M ++ L) =
      inversions D M + (M.map fun c => L.countP (fun b => D c b)).sum + inversions D L := by
  induction M with
  | nil => simp [inversions]
  | cons c M ih =>
    simp only [List.cons_append, inversions, List.countP_append, ih, List.map_cons, List.sum_cons]
    omega

/-- The pairs across towards `x :: L`: those that end at `x`, and those towards `L`.
Source: none: infrastructure
Kind: L -/
theorem sum_countP_cons (M L : List α) (x : α) :
    (M.map fun c => (x :: L).countP (fun b => D c b)).sum =
      M.countP (fun c => D c x) + (M.map fun c => L.countP (fun b => D c b)).sum := by
  induction M with
  | nil => simp
  | cons c M ih =>
    rw [List.map_cons, List.sum_cons, ih, List.countP_cons, List.countP_cons, List.map_cons,
      List.sum_cons]
    omega

/-- At most `2 ^ n - 1` inversions on `n` elements: each element is above at most the elements
after it.
Source: none: infrastructure
Kind: L -/
theorem inversions_lt_two_pow (l : List α) : inversions D l < 2 ^ l.length := by
  induction l with
  | nil => simp [inversions]
  | cons a l ih =>
    have hcount : l.countP (fun b => D a b) ≤ l.length := List.countP_le_length
    have hlen : l.length < 2 ^ l.length := Nat.lt_two_pow_self
    rw [inversions, List.length_cons, Nat.pow_succ]
    omega

variable {D}

/-- **A swap pays for the pairs it creates.** Exchanging `a` and `b` with `D a b`, for a
transitive and irreflexive `D`, removes the pair `(a, b)`; an element `c` between them that now
stands before `a` with `D c a` stood before `b` with `D c b`, and one that now stands after `b`
with `D b c` stood after `a` with `D a c`.
Source: none: infrastructure
Kind: L -/
theorem inversions_swap_lt (htrans : ∀ x y z, D x y → D y z → D x z) (hirr : ∀ x, ¬ D x x)
    {a b : α} (hab : D a b) (pre mid post : List α) :
    inversions D (pre ++ b :: (mid ++ a :: post)) <
      inversions D (pre ++ a :: (mid ++ b :: post)) := by
  have hperm := perm_exchange mid post a b
  -- the pairs from `pre` into the rest are the same on both sides
  have hcross : (pre.map fun c => (b :: (mid ++ a :: post)).countP (fun x => D c x)).sum =
      (pre.map fun c => (a :: (mid ++ b :: post)).countP (fun x => D c x)).sum := by
    congr 1
    exact List.map_congr_left fun c _ => hperm.countP_eq _
  rw [inversions_append, inversions_append, hcross]
  suffices inversions D (b :: (mid ++ a :: post)) < inversions D (a :: (mid ++ b :: post)) by
    omega
  -- `b` is above no more of `mid` than `a` is, and no more of `mid` is above `a` than above `b`
  have hba : ¬ D b a := fun h => hirr a (htrans a b a hab h)
  have hbelow : mid.countP (fun c => D b c) ≤ mid.countP (fun c => D a c) :=
    List.countP_mono_left fun c _ h => by simpa using htrans a b c hab (by simpa using h)
  have habove : mid.countP (fun c => D c a) ≤ mid.countP (fun c => D c b) :=
    List.countP_mono_left fun c _ h => by simpa using htrans c a b (by simpa using h) hab
  rw [inversions, inversions, inversions_append, inversions_append, inversions, inversions,
    sum_countP_cons, sum_countP_cons]
  simp only [List.countP_append, List.countP_cons, hab, hba, decide_true, decide_false,
    Bool.false_eq_true, ↓reduceIte]
  omega

end inversions

/-! ## The loop -/

section loop

variable {r} {l₀ : List α}

/-- **The loop against a strict order.** For a transitive, irreflexive `D` that holds wherever
`r` does between elements of `l₀`: from a permutation of `l₀` with fewer inversions under `D`
than the watchdog, the loop stops before the watchdog runs out, with a permutation of `l₀` in
which no element stands before one it must follow.
Source: none: infrastructure
Kind: L -/
theorem swapLoop_of_inversions_lt {D : α → α → Prop} [DecidableRel D]
    (htrans : ∀ x y z, D x y → D y z → D x z) (hirr : ∀ x, ¬ D x x)
    (hr : ∀ a ∈ l₀, ∀ b ∈ l₀, r a b = true → D a b) :
    ∀ (w : Nat) (l : List α), l.Perm l₀ → inversions D l < w →
      ∃ w' l', swapLoop r w l = (w', l') ∧ 0 < w' ∧ l'.Perm l₀ ∧
        l'.Pairwise (fun a b => r a b = false)
  | 0, _, _, hinv => absurd hinv (Nat.not_lt_zero _)
  | w + 1, l, hperm, hinv => by
    rcases hf : firstSwap r l with _ | ⟨i, j⟩
    · -- nothing out of order: the loop stops with the watchdog it has
      exact ⟨w + 1, l, by simp [swapLoop, hf], Nat.succ_pos w, hperm,
        (firstSwap_eq_none_iff r).mp hf⟩
    · obtain ⟨pre, a, mid, b, post, rfl, hab, hswap⟩ := firstSwap_eq_some r hf
      have hloop : swapLoop r (w + 1) (pre ++ a :: (mid ++ b :: post)) =
          swapLoop r w (pre ++ b :: (mid ++ a :: post)) := by
        simp [swapLoop, hf, hswap]
      -- the swapped pair is out of order under `D`, so the swap removes an inversion
      have hD : D a b := hr a (hperm.subset (by simp)) b (hperm.subset (by simp)) hab
      have hlt := inversions_swap_lt htrans hirr hD pre mid post
      have hperm' := ((perm_exchange mid post a b).append_left pre).trans hperm
      rw [hloop]
      exact swapLoop_of_inversions_lt htrans hirr hr w _ hperm' (by omega)

/-- **The loop on an acyclic list, with a watchdog of `2 ^ n`.** When `r` has no cycle between
the elements of a list of `n` elements, the loop started with a watchdog of `2 ^ n` stops before
it runs out, with a permutation of the list in which no element stands before one it must
follow.
Source: none: infrastructure
Kind: L -/
theorem swapLoop_two_pow (hacyc : AcyclicOn r l₀) :
    ∃ w' l', swapLoop r (2 ^ l₀.length) l₀ = (w', l') ∧ 0 < w' ∧ l'.Perm l₀ ∧
      l'.Pairwise (fun a b => r a b = false) := by
  classical
  -- the order is the closure of `r` between elements of `l₀`
  exact swapLoop_of_inversions_lt (D := Relation.TransGen (RelOn r l₀))
    (fun _ _ _ => Relation.TransGen.trans) hacyc (fun a ha b hb h => .single ⟨ha, hb, h⟩) _ _
    (List.Perm.refl _) (inversions_lt_two_pow _ _)

/-- A rank that every step of `r` between elements of `l₀` lowers rules out cycles.
Source: none: infrastructure
Kind: L -/
theorem acyclicOn_of_rank (f : α → Nat) (h : ∀ x ∈ l₀, ∀ y ∈ l₀, r x y = true → f y < f x) :
    AcyclicOn r l₀ := by
  have hdown : ∀ x y, Relation.TransGen (RelOn r l₀) x y → f y < f x := by
    intro x y hxy
    induction hxy with
    | single hxy => exact h _ hxy.1 _ hxy.2.1 hxy.2.2
    | tail _ hyz ih => exact lt_trans (h _ hyz.1 _ hyz.2.1 hyz.2.2) ih
  exact fun a ha => lt_irrefl _ (hdown a a ha)

end loop

end SwapSort
