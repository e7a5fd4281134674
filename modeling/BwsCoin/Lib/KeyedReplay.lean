import Mathlib

/-!
# Logs of per-key edits

A store seen as a function `κ → S` from keys to entries, and a log: a list of elements, each
naming a key and an edit of the entry at that key. `replay` applies a log in order. This
module names no particular program.

* `replay_apply_of_not_mem`, `replay_apply_of_mem` — over a log whose keys are distinct, an
  entry is edited once, by its own element, from its value before the replay;
* `StepEdits`, `foldlM_of_stepEdits` — a loop whose steps each edit one key of an abstraction
  of its state (keeping an invariant and a frame, and appending to an output list) is, through
  that abstraction, a replay of the list it loops over; the output is the concatenation of the
  elements' records of the entries they edit.

* `StepCounts`, `foldlM_counts` — the same loop changes a size by the weights of the entries
  it edits;
* `replay_undo` — undoing a log is a matter of entries: if each element's records, undone,
  invert its edit of the entry it meets, replaying the records after the log is the identity.
-/

namespace KeyedReplay

variable {κ S α : Type*} [DecidableEq κ] (key : α → κ) (edit : α → S → S)

/-- Apply the edits of a log in order, each to the entry at its key.
Source: none: infrastructure
Kind: D -/
def replay (as : List α) (db : κ → S) : κ → S :=
  as.foldl (fun db a => Function.update db (key a) (edit a (db (key a)))) db

/-- Source: none: infrastructure. Kind: L -/
@[simp] theorem replay_nil (db : κ → S) : replay key edit [] db = db := rfl

/-- Source: none: infrastructure. Kind: L -/
@[simp] theorem replay_cons (a : α) (as : List α) (db : κ → S) :
    replay key edit (a :: as) db =
      replay key edit as (Function.update db (key a) (edit a (db (key a)))) := rfl

/-- Source: none: infrastructure. Kind: L -/
theorem replay_append (as bs : List α) (db : κ → S) :
    replay key edit (as ++ bs) db = replay key edit bs (replay key edit as db) := by
  simp [replay, List.foldl_append]

/-- An entry whose key no element names keeps its value.
Source: none: infrastructure
Kind: L -/
theorem replay_apply_of_not_mem {as : List α} {k : κ} (hk : k ∉ as.map key) (db : κ → S) :
    replay key edit as db k = db k := by
  induction as generalizing db with
  | nil => rfl
  | cons a as ih =>
    simp only [List.map_cons, List.mem_cons, not_or] at hk
    rw [replay_cons, ih hk.2, Function.update_of_ne hk.1]

/-- Over distinct keys, the entry of an element's key is that element's edit of its value
before the replay.
Source: none: infrastructure
Kind: L -/
theorem replay_apply_of_mem {as : List α} (hnd : (as.map key).Nodup) {a : α} (ha : a ∈ as)
    (db : κ → S) : replay key edit as db (key a) = edit a (db (key a)) := by
  induction as generalizing db with
  | nil => simp at ha
  | cons b as ih =>
    rw [List.map_cons, List.nodup_cons] at hnd
    rw [replay_cons]
    rcases List.mem_cons.1 ha with rfl | ha
    · -- the element is the head: no later element names its key
      rw [replay_apply_of_not_mem key edit hnd.1, Function.update_self]
    · have hne : key a ≠ key b := fun h => hnd.1 (h ▸ List.mem_map_of_mem ha)
      rw [ih hnd.2 ha, Function.update_of_ne hne]

/-- Replaying a mapped log is replaying the original with the composed key and edit.
Source: none: infrastructure
Kind: L -/
theorem replay_map {β : Type*} (f : β → α) (bs : List β) (db : κ → S) :
    replay key edit (bs.map f) db = replay (fun b => key (f b)) (fun b => edit (f b)) bs db := by
  simp [replay, List.foldl_map]

/-! ## Undoing a log -/

/-- A replay commutes with an update at a key that no element names.
Source: none: infrastructure
Kind: L -/
theorem replay_update_of_not_mem {as : List α} {k : κ} (hk : k ∉ as.map key) (db : κ → S)
    (x : S) :
    replay key edit as (Function.update db k x) = Function.update (replay key edit as db) k x := by
  induction as generalizing db with
  | nil => rfl
  | cons a as ih =>
    simp only [List.map_cons, List.mem_cons, not_or] at hk
    have hne : key a ≠ k := Ne.symm hk.1
    rw [replay_cons, replay_cons, Function.update_of_ne hne, Function.update_comm hk.1, ih hk.2]

/-- A log whose elements all name one key edits that entry by their composition.
Source: none: infrastructure
Kind: L -/
theorem replay_of_forall_key {as : List α} {k : κ} (hk : ∀ a ∈ as, key a = k) (db : κ → S) :
    replay key edit as db = Function.update db k (as.foldl (fun s a => edit a s) (db k)) := by
  induction as generalizing db with
  | nil => simp
  | cons a as ih =>
    rw [replay_cons, hk a List.mem_cons_self, ih fun b hb => hk b (List.mem_cons_of_mem _ hb),
      Function.update_idem, Function.update_self, List.foldl_cons]

/-- **Undoing a log.** Each element of a log over distinct keys leaves records (`rec`) of the
entry it meets, each naming the element's key. If undoing an element's records after its edit
gives the entry back, replaying all the records in order after the log restores the store.
Source: none: infrastructure
Kind: L -/
theorem replay_undo {β : Type*} (key' : β → κ) (undo : β → S → S) (rec : α → S → List β)
    (hkey : ∀ a s, ∀ b ∈ rec a s, key' b = key a) {as : List α} (hnd : (as.map key).Nodup)
    {db : κ → S}
    (hback : ∀ a ∈ as,
      (rec a (db (key a))).foldl (fun s b => undo b s) (edit a (db (key a))) = db (key a)) :
    replay key' undo (as.flatMap fun a => rec a (db (key a))) (replay key edit as db) = db := by
  induction as generalizing db with
  | nil => rfl
  | cons a as ih =>
    rw [List.map_cons, List.nodup_cons] at hnd
    rw [List.flatMap_cons, replay_append, replay_cons,
      replay_of_forall_key key' undo (hkey a (db (key a)))]
    -- the log leaves `a`'s edit at `a`'s key, and `a`'s records take it back
    rw [replay_apply_of_not_mem key edit hnd.1, Function.update_self, hback a List.mem_cons_self,
      ← replay_update_of_not_mem key edit hnd.1, Function.update_idem, Function.update_eq_self]
    exact ih hnd.2 fun b hb => hback b (List.mem_cons_of_mem _ hb)

/-! ## Loops that edit one key per step -/

section simulation

variable {σ β γ ε : Type*} (abs : σ → κ → S) (out : σ → List β) (frame : σ → γ)
  (inv : σ → Prop) (pre : α → S → Prop) (record : α → S → List β)

/-- A step of a loop over `α`, seen through `abs`: from a state satisfying `inv`, at an element
whose entry satisfies `pre`, it reaches a state satisfying `inv` with the same `frame`, edits
the entry at the element's key, and appends the element's record of the entry's old value to
`out`.
Source: none: infrastructure
Kind: D -/
def StepEdits (step : σ → α → Except ε σ) : Prop :=
  ∀ c a c', inv c → pre a (abs c (key a)) → step c a = .ok c' →
    inv c' ∧ frame c' = frame c ∧
      abs c' = Function.update (abs c) (key a) (edit a (abs c (key a))) ∧
      out c' = out c ++ record a (abs c (key a))

/-- **A loop of key edits is a replay.** Over a list with distinct keys whose entries satisfy
`pre` before the loop, a loop of such steps that returns has replayed the list on the
abstraction, kept the invariant and the frame, and appended the records of the entries before
the loop.
Source: none: infrastructure
Kind: L -/
theorem foldlM_of_stepEdits {step : σ → α → Except ε σ}
    (h : StepEdits key edit abs out frame inv pre record step) {as : List α}
    (hnd : (as.map key).Nodup) {c c' : σ} (hpre : ∀ a ∈ as, pre a (abs c (key a))) (hc : inv c)
    (hrun : as.foldlM step c = .ok c') :
    inv c' ∧ frame c' = frame c ∧ abs c' = replay key edit as (abs c) ∧
      out c' = out c ++ as.flatMap fun a => record a (abs c (key a)) := by
  induction as generalizing c with
  | nil =>
    cases hrun
    simp [hc]
  | cons a as ih =>
    rw [List.map_cons, List.nodup_cons] at hnd
    rw [List.foldlM_cons] at hrun
    -- the first step returned, and then the rest of the loop
    cases hstep : step c a with
    | error e => rw [hstep] at hrun; cases hrun
    | ok c₁ =>
      rw [hstep] at hrun
      obtain ⟨hinv₁, hframe₁, habs₁, hout₁⟩ := h c a c₁ hc (hpre a List.mem_cons_self) hstep
      -- the later steps meet their entries as they were before the loop
      have hsame : ∀ b ∈ as, abs c₁ (key b) = abs c (key b) := fun b hb => by
        have hne : key b ≠ key a := fun e => hnd.1 (e ▸ List.mem_map_of_mem hb)
        rw [habs₁, Function.update_of_ne hne]
      have hpre₁ : ∀ b ∈ as, pre b (abs c₁ (key b)) := fun b hb => by
        rw [hsame b hb]; exact hpre b (List.mem_cons_of_mem a hb)
      obtain ⟨hinv', hframe', habs', hout'⟩ := ih hnd.2 hpre₁ hinv₁ hrun
      refine ⟨hinv', hframe'.trans hframe₁, by rw [habs', habs₁, replay_cons], ?_⟩
      rw [hout', hout₁, List.flatMap_cons, List.append_assoc]
      congr 2
      exact List.flatMap_congr fun b hb => by rw [hsame b hb]

/-- A step whose effect on a size is the change of a weight of the entry it edits.
Source: none: infrastructure
Kind: D -/
def StepCounts (size : σ → Nat) (weight : S → Nat) (step : σ → α → Except ε σ) : Prop :=
  ∀ c a c', inv c → pre a (abs c (key a)) → step c a = .ok c' →
    size c' + weight (abs c (key a)) = size c + weight (edit a (abs c (key a)))

/-- **A loop of key edits changes a size by the weights of the entries it edits.**
Source: none: infrastructure
Kind: L -/
theorem foldlM_counts {step : σ → α → Except ε σ} {size : σ → Nat} {weight : S → Nat}
    (h : StepEdits key edit abs out frame inv pre record step)
    (hcount : StepCounts key edit abs inv pre size weight step) {as : List α}
    (hnd : (as.map key).Nodup) {c c' : σ} (hpre : ∀ a ∈ as, pre a (abs c (key a))) (hc : inv c)
    (hrun : as.foldlM step c = .ok c') :
    size c' + (as.map fun a => weight (abs c (key a))).sum =
      size c + (as.map fun a => weight (edit a (abs c (key a)))).sum := by
  induction as generalizing c with
  | nil => cases hrun; rfl
  | cons a as ih =>
    rw [List.map_cons, List.nodup_cons] at hnd
    rw [List.foldlM_cons] at hrun
    cases hstep : step c a with
    | error e => rw [hstep] at hrun; cases hrun
    | ok c₁ =>
      rw [hstep] at hrun
      have hpa := hpre a List.mem_cons_self
      obtain ⟨hinv₁, -, habs₁, -⟩ := h c a c₁ hc hpa hstep
      have hsize₁ := hcount c a c₁ hc hpa hstep
      have hsame : ∀ b ∈ as, abs c₁ (key b) = abs c (key b) := fun b hb => by
        have hne : key b ≠ key a := fun e => hnd.1 (e ▸ List.mem_map_of_mem hb)
        rw [habs₁, Function.update_of_ne hne]
      have hpre₁ : ∀ b ∈ as, pre b (abs c₁ (key b)) := fun b hb => by
        rw [hsame b hb]; exact hpre b (List.mem_cons_of_mem a hb)
      have ih' := ih hnd.2 hpre₁ hinv₁ hrun
      rw [List.map_congr_left fun b hb => by rw [hsame b hb]] at ih'
      rw [List.map_congr_left (fun b hb => by rw [hsame b hb] :
        ∀ b ∈ as, weight (edit b (abs c₁ (key b))) = weight (edit b (abs c (key b))))] at ih'
      simp only [List.map_cons, List.sum_cons]
      omega

/-- A loop whose steps cannot fail.
Source: none: infrastructure
Kind: L -/
theorem foldlM_ok (f : σ → α → σ) (as : List α) (c : σ) :
    as.foldlM (fun c a => (.ok (f c a) : Except ε σ)) c = .ok (as.foldl f c) := by
  induction as generalizing c with
  | nil => rfl
  | cons a as ih => exact ih (f c a)

end simulation

end KeyedReplay
