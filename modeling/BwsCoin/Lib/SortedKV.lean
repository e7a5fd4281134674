import Mathlib

/-!
# Association lists with strictly increasing keys

The abstract contents of an ordered finite map: a list of key/value pairs whose keys increase
strictly. This module names no particular program.

* `find?`, `insert` (replace or insert in place) and `erase`;
* `find?_insert`, `find?_erase` — the finite-map laws;
* `Sorted` is kept by both operations (`sorted_insert`, `sorted_erase`);
* the splitting lemmas `insert_append_cons_*`, `erase_append_cons_*`, which say where an
  update lands in a list `A ++ x :: B` cut at a pivot `x`: this is how an update of a search
  tree acts on its in-order list.
-/

namespace SortedKV

variable {κ ν : Type*} [LinearOrder κ]

/-- The value stored under `k`.
Source: none: infrastructure
Kind: D -/
def find? (k : κ) : List (κ × ν) → Option ν
  | [] => none
  | (k', v) :: l => if k = k' then some v else find? k l

/-- Insert `(k, v)` before the first larger key, replacing an entry with key `k`.
Source: none: infrastructure
Kind: D -/
def insert (k : κ) (v : ν) : List (κ × ν) → List (κ × ν)
  | [] => [(k, v)]
  | (k', v') :: l =>
    if k < k' then (k, v) :: (k', v') :: l
    else if k = k' then (k, v) :: l
    else (k', v') :: insert k v l

/-- Remove the first entry with key `k`.
Source: none: infrastructure
Kind: D -/
def erase (k : κ) : List (κ × ν) → List (κ × ν)
  | [] => []
  | (k', v') :: l => if k = k' then l else (k', v') :: erase k l

/-- Keys increase strictly.
Source: none: infrastructure
Kind: D -/
def Sorted (l : List (κ × ν)) : Prop := (l.map Prod.fst).Pairwise (· < ·)

/-- The key set of a list.
Source: none: infrastructure
Kind: D -/
def keys (l : List (κ × ν)) : List κ := l.map Prod.fst

/-! ## Equations -/

/-- Source: none: infrastructure. Kind: L -/
@[simp] theorem find?_nil (k : κ) : find? k ([] : List (κ × ν)) = none := rfl

/-- Source: none: infrastructure. Kind: L -/
theorem find?_cons (k k' : κ) (v : ν) (l : List (κ × ν)) :
    find? k ((k', v) :: l) = if k = k' then some v else find? k l := rfl

/-- Source: none: infrastructure. Kind: L -/
@[simp] theorem sorted_nil : Sorted ([] : List (κ × ν)) := List.Pairwise.nil

/-- Source: none: infrastructure. Kind: L -/
theorem sorted_cons {k : κ} {v : ν} {l : List (κ × ν)} :
    Sorted ((k, v) :: l) ↔ (∀ x ∈ l, k < x.1) ∧ Sorted l := by
  simp [Sorted]

/-- A lookup misses exactly the keys not in the list.
Source: none: infrastructure
Kind: L -/
theorem find?_eq_none_iff {k : κ} {l : List (κ × ν)} : find? k l = none ↔ ∀ x ∈ l, x.1 ≠ k := by
  induction l with
  | nil => simp
  | cons x l ih =>
    obtain ⟨k', v⟩ := x
    by_cases h : k = k'
    · subst h; simp [find?_cons]
    · simp [find?_cons, h, ih, Ne.symm h]

/-- A lookup hits a member of the list.
Source: none: infrastructure
Kind: L -/
theorem mem_of_find?_eq_some {k : κ} {v : ν} {l : List (κ × ν)} (h : find? k l = some v) :
    (k, v) ∈ l := by
  induction l with
  | nil => simp at h
  | cons x l ih =>
    obtain ⟨k', v'⟩ := x
    rw [find?_cons] at h
    split_ifs at h with hk
    · cases h; subst hk; exact List.mem_cons_self
    · exact List.mem_cons_of_mem _ (ih h)

/-- In a sorted list a member is found under its key.
Source: none: infrastructure
Kind: L -/
theorem find?_of_mem {k : κ} {v : ν} {l : List (κ × ν)} (hs : Sorted l) (h : (k, v) ∈ l) :
    find? k l = some v := by
  induction l with
  | nil => simp at h
  | cons x l ih =>
    obtain ⟨k', v'⟩ := x
    obtain ⟨hlt, hs'⟩ := sorted_cons.1 hs
    rw [find?_cons]
    rcases List.mem_cons.1 h with h | h
    · cases h; simp
    · have : k ≠ k' := ne_of_gt (hlt _ h)
      rw [if_neg this]
      exact ih hs' h

/-! ## The finite-map laws -/

/-- Source: none: infrastructure. Kind: L -/
theorem find?_insert (j k : κ) (v : ν) (l : List (κ × ν)) :
    find? j (insert k v l) = if j = k then some v else find? j l := by
  induction l with
  | nil => rfl
  | cons x l ih =>
    obtain ⟨k', v'⟩ := x
    simp only [insert]
    split_ifs with h1 h2 h3 h4 h5 <;> simp_all [find?_cons]

/-- Source: none: infrastructure. Kind: L -/
theorem find?_erase {l : List (κ × ν)} (hs : Sorted l) (j k : κ) :
    find? j (erase k l) = if j = k then none else find? j l := by
  induction l with
  | nil => simp [erase]
  | cons x l ih =>
    obtain ⟨k', v'⟩ := x
    obtain ⟨hlt, hs'⟩ := sorted_cons.1 hs
    simp only [erase]
    by_cases hk : k = k'
    · -- the head is the erased entry; the tail has no key `k`
      subst hk
      have htail : find? k l = none := find?_eq_none_iff.2 fun x hx => ne_of_gt (hlt x hx)
      rw [if_pos rfl, find?_cons]
      by_cases hj : j = k
      · subst hj; simp [htail]
      · simp [hj]
    · rw [if_neg hk, find?_cons, find?_cons, ih hs']
      by_cases hj : j = k
      · subst hj; simp [hk]
      · simp [hj]

/-- Erasing only removes entries.
Source: none: infrastructure
Kind: L -/
theorem mem_of_mem_erase {k : κ} {x : κ × ν} {l : List (κ × ν)} (h : x ∈ erase k l) : x ∈ l := by
  induction l with
  | nil => simp [erase] at h
  | cons y l ih =>
    obtain ⟨k', v'⟩ := y
    simp only [erase] at h
    split_ifs at h
    · exact List.mem_cons_of_mem _ h
    · rcases List.mem_cons.1 h with rfl | h
      · exact List.mem_cons_self
      · exact List.mem_cons_of_mem _ (ih h)

/-- Source: none: infrastructure. Kind: L -/
theorem mem_keys_insert {j k : κ} {v : ν} {l : List (κ × ν)} :
    (∃ w, (j, w) ∈ insert k v l) ↔ j = k ∨ ∃ w, (j, w) ∈ l := by
  induction l with
  | nil => simp [insert]
  | cons x l ih =>
    obtain ⟨k', v'⟩ := x
    simp only [insert]
    split_ifs with h1 h2
    · simp only [List.mem_cons, Prod.mk.injEq]
      constructor
      · rintro ⟨w, ⟨rfl, rfl⟩ | ⟨rfl, rfl⟩ | h⟩
        · exact Or.inl rfl
        · exact Or.inr ⟨w, Or.inl ⟨rfl, rfl⟩⟩
        · exact Or.inr ⟨w, Or.inr h⟩
      · rintro (rfl | ⟨w, ⟨rfl, rfl⟩ | h⟩)
        · exact ⟨v, Or.inl ⟨rfl, rfl⟩⟩
        · exact ⟨w, Or.inr (Or.inl ⟨rfl, rfl⟩)⟩
        · exact ⟨w, Or.inr (Or.inr h)⟩
    · subst h2
      simp only [List.mem_cons, Prod.mk.injEq]
      constructor
      · rintro ⟨w, ⟨rfl, rfl⟩ | h⟩
        · exact Or.inl rfl
        · exact Or.inr ⟨w, Or.inr h⟩
      · rintro (rfl | ⟨w, ⟨rfl, rfl⟩ | h⟩)
        · exact ⟨v, Or.inl ⟨rfl, rfl⟩⟩
        · exact ⟨v, Or.inl ⟨rfl, rfl⟩⟩
        · exact ⟨w, Or.inr h⟩
    · simp only [List.mem_cons, Prod.mk.injEq]
      constructor
      · rintro ⟨w, ⟨rfl, rfl⟩ | h⟩
        · exact Or.inr ⟨w, Or.inl ⟨rfl, rfl⟩⟩
        · rcases ih.1 ⟨w, h⟩ with h | ⟨w', h⟩
          · exact Or.inl h
          · exact Or.inr ⟨w', Or.inr h⟩
      · rintro (rfl | ⟨w, ⟨rfl, rfl⟩ | h⟩)
        · obtain ⟨w, hw⟩ := ih.2 (Or.inl rfl)
          exact ⟨w, Or.inr hw⟩
        · exact ⟨w, Or.inl ⟨rfl, rfl⟩⟩
        · obtain ⟨w', hw⟩ := ih.2 (Or.inr ⟨w, h⟩)
          exact ⟨w', Or.inr hw⟩

/-- Insertion keeps the keys increasing.
Source: none: infrastructure
Kind: L -/
theorem sorted_insert {l : List (κ × ν)} (hs : Sorted l) (k : κ) (v : ν) :
    Sorted (insert k v l) := by
  induction l with
  | nil => simp [insert, Sorted]
  | cons x l ih =>
    obtain ⟨k', v'⟩ := x
    obtain ⟨hlt, hs'⟩ := sorted_cons.1 hs
    simp only [insert]
    split_ifs with h1 h2
    · refine sorted_cons.2 ⟨fun x hx => ?_, hs⟩
      rcases List.mem_cons.1 hx with rfl | hx
      · exact h1
      · exact h1.trans (hlt x hx)
    · subst h2; exact sorted_cons.2 ⟨hlt, hs'⟩
    · refine sorted_cons.2 ⟨fun x hx => ?_, ih hs'⟩
      obtain ⟨j, w⟩ := x
      rcases mem_keys_insert.1 ⟨w, hx⟩ with rfl | ⟨w', hw⟩
      · exact lt_of_le_of_ne (not_lt.1 h1) (Ne.symm h2)
      · exact hlt (j, w') hw

/-- Erasing keeps the keys increasing.
Source: none: infrastructure
Kind: L -/
theorem sorted_erase {l : List (κ × ν)} (hs : Sorted l) (k : κ) : Sorted (erase k l) := by
  induction l with
  | nil => simp [erase]
  | cons x l ih =>
    obtain ⟨k', v'⟩ := x
    obtain ⟨hlt, hs'⟩ := sorted_cons.1 hs
    simp only [erase]
    split_ifs
    · exact hs'
    · refine sorted_cons.2 ⟨fun x hx => hlt x ?_, ih hs'⟩
      exact mem_of_mem_erase hx

/-! ## Updates of a list cut at a pivot -/

section split

variable {k : κ} {v : ν} {x : κ × ν} {A B : List (κ × ν)}

/-- An insertion left of the pivot stays left of it.
Source: none: infrastructure
Kind: L -/
theorem insert_append_cons_of_lt (h : k < x.1) : insert k v (A ++ x :: B) = insert k v A ++ x :: B := by
  induction A with
  | nil => obtain ⟨k', v'⟩ := x; simp [insert, h]
  | cons a A ih =>
    obtain ⟨k', v'⟩ := a
    simp only [List.cons_append, insert]
    split_ifs <;> simp [ih]

/-- An insertion right of the pivot passes the whole left part.
Source: none: infrastructure
Kind: L -/
theorem insert_append_cons_of_gt (hA : ∀ a ∈ A, a.1 < k) (h : x.1 < k) :
    insert k v (A ++ x :: B) = A ++ x :: insert k v B := by
  induction A with
  | nil =>
    obtain ⟨k', v'⟩ := x
    simp [insert, not_lt.2 h.le, ne_of_gt h]
  | cons a A ih =>
    obtain ⟨k', v'⟩ := a
    have hk' : k' < k := hA _ List.mem_cons_self
    simp only [List.cons_append, insert, not_lt.2 hk'.le, ne_of_gt hk', if_false]
    rw [ih fun a ha => hA a (List.mem_cons_of_mem _ ha)]

/-- An insertion at the pivot's key replaces the pivot's value.
Source: none: infrastructure
Kind: L -/
theorem insert_append_cons_self (hA : ∀ a ∈ A, a.1 < k) (w : ν) :
    insert k v (A ++ (k, w) :: B) = A ++ (k, v) :: B := by
  induction A with
  | nil => simp [insert]
  | cons a A ih =>
    obtain ⟨k', v'⟩ := a
    have hk' : k' < k := hA _ List.mem_cons_self
    simp only [List.cons_append, insert, not_lt.2 hk'.le, ne_of_gt hk', if_false]
    rw [ih fun a ha => hA a (List.mem_cons_of_mem _ ha)]

/-- Erasing a key that no entry carries changes nothing.
Source: none: infrastructure
Kind: L -/
theorem erase_of_forall_ne {l : List (κ × ν)} (h : ∀ y ∈ l, y.1 ≠ k) : erase k l = l := by
  induction l with
  | nil => rfl
  | cons y l ih =>
    obtain ⟨k', v'⟩ := y
    have hk : k ≠ k' := Ne.symm (h _ List.mem_cons_self)
    simp only [erase, hk, if_false]
    rw [ih fun y hy => h y (List.mem_cons_of_mem _ hy)]

/-- Erasing a key left of the pivot, whose right part lies above the pivot.
Source: none: infrastructure
Kind: L -/
theorem erase_append_cons_of_lt (h : k < x.1) (hB : ∀ b ∈ B, x.1 < b.1) :
    erase k (A ++ x :: B) = erase k A ++ x :: B := by
  induction A with
  | nil =>
    obtain ⟨k', v'⟩ := x
    simp only [List.nil_append, erase, ne_of_lt h, if_false]
    rw [erase_of_forall_ne fun b hb => ne_of_gt (h.trans (hB b hb))]
  | cons a A ih =>
    obtain ⟨k', v'⟩ := a
    simp only [List.cons_append, erase]
    split_ifs <;> simp [ih]

/-- Erasing a key right of the pivot passes the whole left part.
Source: none: infrastructure
Kind: L -/
theorem erase_append_cons_of_gt (hA : ∀ a ∈ A, a.1 < k) (h : x.1 < k) :
    erase k (A ++ x :: B) = A ++ x :: erase k B := by
  induction A with
  | nil =>
    obtain ⟨k', v'⟩ := x
    simp [erase, ne_of_gt h]
  | cons a A ih =>
    obtain ⟨k', v'⟩ := a
    have hk' : k ≠ k' := ne_of_gt (hA _ List.mem_cons_self)
    simp only [List.cons_append, erase, hk', if_false]
    rw [ih fun a ha => hA a (List.mem_cons_of_mem _ ha)]

/-- Erasing the pivot's key removes the pivot.
Source: none: infrastructure
Kind: L -/
theorem erase_append_cons_self (hA : ∀ a ∈ A, a.1 < k) (w : ν) :
    erase k (A ++ (k, w) :: B) = A ++ B := by
  induction A with
  | nil => simp [erase]
  | cons a A ih =>
    obtain ⟨k', v'⟩ := a
    have hk' : k ≠ k' := ne_of_gt (hA _ List.mem_cons_self)
    simp only [List.cons_append, erase, hk', if_false]
    rw [ih fun a ha => hA a (List.mem_cons_of_mem _ ha)]

end split

/-! ## Sizes -/

/-- On a sorted list insertion adds an entry exactly when the key is new.
Source: none: infrastructure
Kind: L -/
theorem length_insert {l : List (κ × ν)} (hs : Sorted l) (k : κ) (v : ν) :
    (insert k v l).length = if (find? k l).isSome then l.length else l.length + 1 := by
  induction l with
  | nil => rfl
  | cons x l ih =>
    obtain ⟨k', v'⟩ := x
    obtain ⟨hlt, hs'⟩ := sorted_cons.1 hs
    rcases lt_trichotomy k k' with h | rfl | h
    · -- `k` lies below every key of the list
      have hnone : find? k l = none := find?_eq_none_iff.2 fun x hx => ne_of_gt (h.trans (hlt x hx))
      simp [insert, find?_cons, h, ne_of_lt h, hnone]
    · simp [insert, find?_cons]
    · simp only [insert, find?_cons, not_lt.2 h.le, ne_of_gt h, if_false, List.length_cons, ih hs']
      split_ifs <;> rfl

/-- Erasing removes one entry exactly when the key is present.
Source: none: infrastructure
Kind: L -/
theorem length_erase (k : κ) (l : List (κ × ν)) :
    (erase k l).length + (if (find? k l).isSome then 1 else 0) = l.length := by
  induction l with
  | nil => rfl
  | cons x l ih =>
    obtain ⟨k', v'⟩ := x
    by_cases h : k = k'
    · simp [erase, find?_cons, h]
    · simp only [erase, find?_cons, h, if_false, List.length_cons]
      omega

/-- **Extensionality**: sorted lists with the same lookups are equal.
Source: none: infrastructure
Kind: L -/
theorem eq_of_find?_eq : ∀ {l₁ l₂ : List (κ × ν)}, Sorted l₁ → Sorted l₂ →
    (∀ k, find? k l₁ = find? k l₂) → l₁ = l₂
  | [], [], _, _, _ => rfl
  | [], (k, v) :: l, _, _, h => by
    have := h k
    rw [find?_nil, find?_cons, if_pos rfl] at this
    cases this
  | (k, v) :: l, [], _, _, h => by
    have := h k
    rw [find?_nil, find?_cons, if_pos rfl] at this
    cases this
  | (k₁, v₁) :: l₁, (k₂, v₂) :: l₂, hs₁, hs₂, h => by
    obtain ⟨hlt₁, hs₁'⟩ := sorted_cons.1 hs₁
    obtain ⟨hlt₂, hs₂'⟩ := sorted_cons.1 hs₂
    -- both heads are the least key
    have hk : k₁ = k₂ := by
      rcases lt_trichotomy k₁ k₂ with hlt | heq | hgt
      · have := h k₁
        rw [find?_cons, if_pos rfl, find?_cons, if_neg (ne_of_lt hlt),
          find?_eq_none_iff.2 fun x hx => ne_of_gt (hlt.trans (hlt₂ x hx))] at this
        cases this
      · exact heq
      · have := h k₂
        rw [find?_cons, if_neg (ne_of_lt hgt), find?_cons, if_pos rfl,
          find?_eq_none_iff.2 fun x hx => ne_of_gt (hgt.trans (hlt₁ x hx))] at this
        cases this
    subst hk
    have hv : v₁ = v₂ := by
      have := h k₁
      rw [find?_cons, if_pos rfl, find?_cons, if_pos rfl] at this
      exact Option.some.inj this
    subst hv
    have ht : ∀ k, find? k l₁ = find? k l₂ := fun k => by
      by_cases hk : k = k₁
      · subst hk
        rw [find?_eq_none_iff.2 fun x hx => ne_of_gt (hlt₁ x hx),
          find?_eq_none_iff.2 fun x hx => ne_of_gt (hlt₂ x hx)]
      · have := h k
        rwa [find?_cons, if_neg hk, find?_cons, if_neg hk] at this
    rw [eq_of_find?_eq hs₁' hs₂' ht]

/-- The keys of a sorted list are distinct.
Source: none: infrastructure
Kind: L -/
theorem nodup_keys {l : List (κ × ν)} (hs : Sorted l) : (keys l).Nodup :=
  List.Pairwise.imp ne_of_lt hs

end SortedKV
