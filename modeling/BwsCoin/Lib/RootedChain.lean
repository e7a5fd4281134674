import Mathlib.Logic.Function.Basic

/-!
# Rooted chains

A rooted chain is an entry with a link to its parent, and so on back to a root: the shape of
every entry of a tree of entries that point to their parents, seen from that entry. An entry's
height is its distance to the root. This module names no particular program.

* `ancestors` — the entry, its parent and so on; the entries of one chain have distinct
  heights (`eq_of_mem_ancestors_of_height_eq`), so an entry is known among the ancestors of
  another by its height (`mem_ancestors_iff_ancestorAt`);
* `above` — the entries of a chain strictly above one of its ancestors, from the lowest up;
  one step up the chain adds one entry at the end (`above_cons_of_ne`);
* `LastCommon` — the last common ancestor of two entries, or none. Two pairs with the same
  common ancestors have the same one (`lastCommon_congr`), and the common ancestors stay the same
  when an entry off the other's chain steps to its parent (`common_cons_iff_of_not_mem`), when
  two different entries of one height both do (`common_cons_cons_iff`), and when an entry is
  lowered to the other's height (`common_iff_of_mem_ancestors`): the steps of the walks that look
  for it.
-/

universe u

/-- An entry with the chain of its parents back to a root entry.
Source: none: infrastructure
Kind: D -/
inductive RootedChain (α : Type u) where
  | root (a : α)
  | cons (parent : RootedChain α) (a : α)
  deriving DecidableEq, Repr

namespace RootedChain

variable {α : Type u}

/-- The entry's own data. Source: none: infrastructure. Kind: D -/
def data : RootedChain α → α
  | root a => a
  | cons _ a => a

/-- The number of links back to the root. Source: none: infrastructure. Kind: D -/
def height : RootedChain α → Nat
  | root _ => 0
  | cons parent _ => parent.height + 1

/-- The parent, none at the root. Source: none: infrastructure. Kind: D -/
def parent? : RootedChain α → Option (RootedChain α)
  | root _ => none
  | cons parent _ => some parent

/-- `n` links back, stopping at the root. Source: none: infrastructure. Kind: D -/
def walkBack : RootedChain α → Nat → RootedChain α
  | c, 0 => c
  | root a, _ + 1 => root a
  | cons parent _, n + 1 => parent.walkBack n

/-- The ancestor at a height: none above the entry's own height.
Source: none: infrastructure
Kind: D -/
def ancestorAt (c : RootedChain α) (h : Nat) : Option (RootedChain α) :=
  if h ≤ c.height then some (c.walkBack (c.height - h)) else none

/-- The entry itself, its parent, and so on to the root.
Source: none: infrastructure
Kind: D -/
def ancestors : RootedChain α → List (RootedChain α)
  | root a => [root a]
  | cons parent a => cons parent a :: parent.ancestors

/-- The entries of `c` strictly above `b`, the lowest first; all of `c`'s entries when `b` is not
one of them.
Source: none: infrastructure
Kind: D -/
def above [DecidableEq α] (b : RootedChain α) : RootedChain α → List (RootedChain α)
  | root a => if root a = b then [] else [root a]
  | cons parent a => if cons parent a = b then [] else above b parent ++ [cons parent a]

/-- Source: none: infrastructure. Kind: L -/
@[simp] theorem height_cons (parent : RootedChain α) (a : α) :
    (cons parent a).height = parent.height + 1 := rfl

/-- Source: none: infrastructure. Kind: L -/
@[simp] theorem parent?_cons (parent : RootedChain α) (a : α) :
    (cons parent a).parent? = some parent := rfl

/-- Source: none: infrastructure. Kind: L -/
@[simp] theorem ancestors_root (a : α) : (root a).ancestors = [root a] := rfl

/-- Source: none: infrastructure. Kind: L -/
@[simp] theorem ancestors_cons (parent : RootedChain α) (a : α) :
    (cons parent a).ancestors = cons parent a :: parent.ancestors := rfl

/-! ## Ancestors -/

/-- Source: none: infrastructure. Kind: L -/
theorem self_mem_ancestors (c : RootedChain α) : c ∈ c.ancestors := by
  cases c <;> simp

/-- Every ancestor is at most as high as the entry.
Source: none: infrastructure
Kind: L -/
theorem height_le_of_mem_ancestors {b c : RootedChain α} (h : b ∈ c.ancestors) :
    b.height ≤ c.height := by
  induction c with
  | root a => simp only [ancestors_root, List.mem_singleton] at h; subst h; exact Nat.le_refl _
  | cons parent a ih =>
    simp only [ancestors_cons, List.mem_cons] at h
    rcases h with rfl | h
    · exact Nat.le_refl _
    · exact Nat.le_succ_of_le (ih h)

/-- An ancestor other than the entry is an ancestor of its parent.
Source: none: infrastructure
Kind: L -/
theorem mem_ancestors_of_mem_cons {b parent : RootedChain α} {a : α}
    (h : b ∈ (cons parent a).ancestors) (hne : b ≠ cons parent a) : b ∈ parent.ancestors := by
  simp only [ancestors_cons, List.mem_cons] at h
  exact h.resolve_left hne

/-- An ancestor of the entry's own height is the entry.
Source: none: infrastructure
Kind: L -/
theorem eq_of_mem_ancestors_of_height_eq {b c : RootedChain α} (h : b ∈ c.ancestors)
    (hh : b.height = c.height) : b = c := by
  cases c with
  | root a => simpa using h
  | cons parent a =>
    by_contra hne
    have hle := height_le_of_mem_ancestors (mem_ancestors_of_mem_cons h hne)
    simp only [height_cons] at hh
    omega

/-- Source: none: infrastructure. Kind: L -/
theorem mem_ancestors_trans {a b c : RootedChain α} (hab : a ∈ b.ancestors)
    (hbc : b ∈ c.ancestors) : a ∈ c.ancestors := by
  induction c with
  | root x =>
    simp only [ancestors_root, List.mem_singleton] at hbc
    subst hbc
    exact hab
  | cons parent x ih =>
    simp only [ancestors_cons, List.mem_cons] at hbc
    rcases hbc with rfl | hbc
    · exact hab
    · exact List.mem_cons_of_mem _ (ih hbc)

/-- A strict ancestor is lower than the entry.
Source: none: infrastructure
Kind: L -/
theorem height_lt_of_mem_ancestors {b c : RootedChain α} (h : b ∈ c.ancestors) (hne : b ≠ c) :
    b.height < c.height :=
  Nat.lt_of_le_of_ne (height_le_of_mem_ancestors h)
    (fun hh => hne (eq_of_mem_ancestors_of_height_eq h hh))

/-- Two ancestors of one entry at the same height are the same entry.
Source: none: infrastructure
Kind: L -/
theorem eq_of_mem_ancestors_of_mem_ancestors {x y c : RootedChain α} (hx : x ∈ c.ancestors)
    (hy : y ∈ c.ancestors) (hh : x.height = y.height) : x = y := by
  induction c with
  | root a =>
    simp only [ancestors_root, List.mem_singleton] at hx hy
    rw [hx, hy]
  | cons parent a ih =>
    by_cases hxc : x = cons parent a
    · subst hxc
      exact (eq_of_mem_ancestors_of_height_eq hy hh.symm).symm
    · by_cases hyc : y = cons parent a
      · subst hyc
        exact eq_of_mem_ancestors_of_height_eq hx hh
      · exact ih (mem_ancestors_of_mem_cons hx hxc) (mem_ancestors_of_mem_cons hy hyc)

/-! ## The ancestor at a height -/

/-- Source: none: infrastructure. Kind: L -/
theorem height_walkBack (c : RootedChain α) (n : Nat) : (c.walkBack n).height = c.height - n := by
  induction c generalizing n with
  | root a => cases n <;> simp [walkBack, height]
  | cons parent a ih =>
    cases n with
    | zero => rfl
    | succ n => simp only [walkBack, ih, height_cons]; omega

/-- Source: none: infrastructure. Kind: L -/
theorem walkBack_mem_ancestors (c : RootedChain α) (n : Nat) : c.walkBack n ∈ c.ancestors := by
  induction c generalizing n with
  | root a => cases n <;> simp [walkBack]
  | cons parent a ih =>
    cases n with
    | zero => exact self_mem_ancestors _
    | succ n => exact List.mem_cons_of_mem _ (ih n)

/-- An entry is an ancestor of `c` exactly when it is `c`'s ancestor at its own height.
Source: none: infrastructure
Kind: L -/
theorem mem_ancestors_iff_ancestorAt {b c : RootedChain α} :
    b ∈ c.ancestors ↔ c.ancestorAt b.height = some b := by
  constructor
  · intro h
    have hle := height_le_of_mem_ancestors h
    -- the walk back lands on an ancestor of `b`'s height, which is `b` itself
    have hh : (c.walkBack (c.height - b.height)).height = b.height := by
      rw [height_walkBack]; omega
    have heq := eq_of_mem_ancestors_of_mem_ancestors (walkBack_mem_ancestors c _) h hh
    simp only [ancestorAt, hle, if_true, heq]
  · intro h
    simp only [ancestorAt] at h
    split at h
    · rw [← Option.some.inj h]
      exact walkBack_mem_ancestors _ _
    · cases h

/-- An ancestor sees the lower part of the chain as the entry does.
Source: none: infrastructure
Kind: L -/
theorem ancestorAt_of_mem_ancestors {b c : RootedChain α} (hb : b ∈ c.ancestors) {h : Nat}
    (hh : h ≤ b.height) : b.ancestorAt h = c.ancestorAt h := by
  have hmem : b.walkBack (b.height - h) ∈ c.ancestors :=
    mem_ancestors_trans (walkBack_mem_ancestors _ _) hb
  have hheight : (b.walkBack (b.height - h)).height = h := by rw [height_walkBack]; omega
  have := mem_ancestors_iff_ancestorAt.mp hmem
  rw [hheight] at this
  rw [this]
  simp only [ancestorAt, hh, if_true]

/-- The ancestor at a height is an ancestor of that height.
Source: none: infrastructure
Kind: L -/
theorem ancestorAt_eq_some {c r : RootedChain α} {h : Nat} (hr : c.ancestorAt h = some r) :
    r ∈ c.ancestors ∧ r.height = h := by
  simp only [ancestorAt] at hr
  split at hr
  · cases hr
    exact ⟨walkBack_mem_ancestors _ _, by rw [height_walkBack]; omega⟩
  · cases hr

/-- Every height up to the entry's own has an ancestor.
Source: none: infrastructure
Kind: L -/
theorem exists_ancestorAt {c : RootedChain α} {h : Nat} (hh : h ≤ c.height) :
    ∃ r, c.ancestorAt h = some r :=
  ⟨_, if_pos hh⟩

/-- Of two ancestors of one entry, the lower is an ancestor of the higher.
Source: none: infrastructure
Kind: L -/
theorem mem_ancestors_of_height_le {x r c : RootedChain α} (hx : x ∈ c.ancestors)
    (hr : r ∈ c.ancestors) (h : x.height ≤ r.height) : x ∈ r.ancestors := by
  have hc : c.ancestorAt x.height = some x := mem_ancestors_iff_ancestorAt.mp hx
  rw [← ancestorAt_of_mem_ancestors hr h] at hc
  exact mem_ancestors_iff_ancestorAt.mpr hc

/-! ## The last common ancestor -/

/-- The last common ancestor of `a` and `b`: `some r` when `r` is an ancestor of both that has
every common ancestor among its own; `none` when they have no common ancestor.
Source: none: infrastructure
Kind: D -/
def LastCommon (a b : RootedChain α) : Option (RootedChain α) → Prop
  | some r => r ∈ a.ancestors ∧ r ∈ b.ancestors ∧ ∀ x ∈ a.ancestors, x ∈ b.ancestors → x ∈ r.ancestors
  | none => ∀ x ∈ a.ancestors, x ∉ b.ancestors

/-- Two pairs with the same common ancestors have the same last common ancestor.
Source: none: infrastructure
Kind: L -/
theorem lastCommon_congr {a b a' b' : RootedChain α} {r : Option (RootedChain α)}
    (h : ∀ x, x ∈ a.ancestors ∧ x ∈ b.ancestors ↔ x ∈ a'.ancestors ∧ x ∈ b'.ancestors) :
    LastCommon a b r ↔ LastCommon a' b' r := by
  cases r with
  | none =>
    simp only [LastCommon]
    exact ⟨fun hn x ha hb => hn x ((h x).mpr ⟨ha, hb⟩).1 ((h x).mpr ⟨ha, hb⟩).2,
      fun hn x ha hb => hn x ((h x).mp ⟨ha, hb⟩).1 ((h x).mp ⟨ha, hb⟩).2⟩
  | some r =>
    simp only [LastCommon]
    constructor
    · rintro ⟨ha, hb, hmax⟩
      exact ⟨((h r).mp ⟨ha, hb⟩).1, ((h r).mp ⟨ha, hb⟩).2,
        fun x ha' hb' => hmax x ((h x).mpr ⟨ha', hb'⟩).1 ((h x).mpr ⟨ha', hb'⟩).2⟩
    · rintro ⟨ha, hb, hmax⟩
      exact ⟨((h r).mpr ⟨ha, hb⟩).1, ((h r).mpr ⟨ha, hb⟩).2,
        fun x ha' hb' => hmax x ((h x).mp ⟨ha', hb'⟩).1 ((h x).mp ⟨ha', hb'⟩).2⟩

/-- Source: none: infrastructure. Kind: L -/
theorem lastCommon_comm {a b : RootedChain α} {r : Option (RootedChain α)} :
    LastCommon a b r ↔ LastCommon b a r :=
  lastCommon_congr fun _ => and_comm

/-- An ancestor of `b` is its own last common ancestor with `b`.
Source: none: infrastructure
Kind: L -/
theorem lastCommon_of_mem {a b : RootedChain α} (h : a ∈ b.ancestors) :
    LastCommon a b (some a) :=
  ⟨self_mem_ancestors a, h, fun _ hx _ => hx⟩

/-- A genesis entry that is not an ancestor of `b` has no common ancestor with it.
Source: none: infrastructure
Kind: L -/
theorem lastCommon_root_of_not_mem {u : α} {b : RootedChain α} (h : root u ∉ b.ancestors) :
    LastCommon (root u) b none := by
  intro x hx
  simp only [ancestors_root, List.mem_singleton] at hx
  rwa [hx]

/-- An entry that is not an ancestor of `b` has the common ancestors of its parent.
Source: none: infrastructure
Kind: L -/
theorem common_cons_iff_of_not_mem {parent b : RootedChain α} {u : α}
    (h : cons parent u ∉ b.ancestors) (x : RootedChain α) :
    x ∈ (cons parent u).ancestors ∧ x ∈ b.ancestors ↔ x ∈ parent.ancestors ∧ x ∈ b.ancestors := by
  constructor
  · rintro ⟨ha, hb⟩
    have hne : x ≠ cons parent u := fun hx => h (hx ▸ hb)
    exact ⟨mem_ancestors_of_mem_cons ha hne, hb⟩
  · rintro ⟨ha, hb⟩
    exact ⟨List.mem_cons_of_mem _ ha, hb⟩

/-- Two different entries of one height have the common ancestors of their parents.
Source: none: infrastructure
Kind: L -/
theorem common_cons_cons_iff {pa pb : RootedChain α} {u v : α} (hne : cons pa u ≠ cons pb v)
    (hh : pa.height = pb.height) (x : RootedChain α) :
    x ∈ (cons pa u).ancestors ∧ x ∈ (cons pb v).ancestors ↔
      x ∈ pa.ancestors ∧ x ∈ pb.ancestors := by
  -- neither entry is an ancestor of the other, as they share a height
  have ha : cons pa u ∉ (cons pb v).ancestors := fun hm =>
    hne (eq_of_mem_ancestors_of_height_eq hm (by simp [hh]))
  have hb : cons pb v ∉ pa.ancestors := fun hm => by
    have := height_le_of_mem_ancestors hm
    simp only [height_cons] at this
    omega
  rw [common_cons_iff_of_not_mem ha, and_comm, common_cons_iff_of_not_mem hb, and_comm]

/-- Lowering `a` to an ancestor no lower than `a` or `b` keeps the common ancestors.
Source: none: infrastructure
Kind: L -/
theorem common_iff_of_mem_ancestors {a a' b : RootedChain α} (ha' : a' ∈ a.ancestors)
    (hh : min a.height b.height ≤ a'.height) (x : RootedChain α) :
    x ∈ a.ancestors ∧ x ∈ b.ancestors ↔ x ∈ a'.ancestors ∧ x ∈ b.ancestors := by
  constructor
  · rintro ⟨ha, hb⟩
    have hxa := height_le_of_mem_ancestors ha
    have hxb := height_le_of_mem_ancestors hb
    exact ⟨mem_ancestors_of_height_le ha ha' (by omega), hb⟩
  · rintro ⟨ha, hb⟩
    exact ⟨mem_ancestors_trans ha ha', hb⟩

/-! ## The entries above an ancestor -/

section above

variable [DecidableEq α]

/-- Source: none: infrastructure. Kind: L -/
@[simp] theorem above_self (b : RootedChain α) : above b b = [] := by
  cases b <;> simp [above]

/-- One step up the chain adds the new entry at the end.
Source: none: infrastructure
Kind: L -/
theorem above_cons_of_ne {b parent : RootedChain α} {a : α} (hne : cons parent a ≠ b) :
    above b (cons parent a) = above b parent ++ [cons parent a] := by
  simp only [above, hne, if_false]

end above

end RootedChain
