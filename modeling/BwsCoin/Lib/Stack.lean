import Mathlib

/-!
# Stacks, and implementations that simulate one

The operations of a stack of elements of `α` (push, pop, a look at a depth, the length) form a
small language (`Op`), and what each shows is an observation (`Obs`). An implementation is a
state with the four operations (`Impl`); it runs a list of operations to the list of its
observations. The list stack, top first, is the specification (`listStack`). This module names
no particular program.

* `run_eq_of_simulatesStep` — an implementation shows what the list stack shows on every run a
  guard allows, when a relation between its states and lists holds at the start and every
  guarded step keeps it with equal observations;
* `Guarded.of_forall_mem` — a guard that holds at every state before each operation of a list
  guards its runs.
-/

namespace Stack

/-- The operations of a stack.
Source: none: infrastructure
Kind: D -/
inductive Op (α : Type) where
  | push (a : α)
  | pop
  | peek (n : Nat)
  | len
  deriving DecidableEq, Repr

/-- What an operation shows: nothing (a push), an element or its absence, or a length.
Source: none: infrastructure
Kind: D -/
inductive Obs (α : Type) where
  | unit
  | elem (a : Option α)
  | len (n : Nat)
  deriving DecidableEq, Repr

/-- A stack implementation over states `σ`: `peek s n` is the element `n` below the top.
Source: none: infrastructure
Kind: D -/
structure Impl (σ α : Type) where
  push : σ → α → σ
  pop : σ → Option α × σ
  peek : σ → Nat → Option α
  len : σ → Nat

variable {σ α : Type}

namespace Impl

/-- One operation: its observation and the next state.
Source: none: infrastructure
Kind: D -/
def step (I : Impl σ α) (s : σ) : Op α → Obs α × σ
  | .push a => (.unit, I.push s a)
  | .pop => ((.elem (I.pop s).1), (I.pop s).2)
  | .peek n => (.elem (I.peek s n), s)
  | .len => (.len (I.len s), s)

/-- The observations of a list of operations from a state.
Source: none: infrastructure
Kind: D -/
def run (I : Impl σ α) : σ → List (Op α) → List (Obs α)
  | _, [] => []
  | s, op :: ops => (I.step s op).1 :: I.run (I.step s op).2 ops

/-- The state after a list of operations.
Source: none: infrastructure
Kind: D -/
def exec (I : Impl σ α) : σ → List (Op α) → σ
  | s, [] => s
  | s, op :: ops => I.exec (I.step s op).2 ops

/-- Source: none: infrastructure. Kind: L -/
theorem run_append (I : Impl σ α) (s : σ) (ops ops' : List (Op α)) :
    I.run s (ops ++ ops') = I.run s ops ++ I.run (I.exec s ops) ops' := by
  induction ops generalizing s with
  | nil => rfl
  | cons op ops ih => simp only [List.cons_append, run, exec, ih]

/-- Pushes show nothing.
Source: none: infrastructure
Kind: L -/
theorem run_map_push (I : Impl σ α) (s : σ) (xs : List α) :
    I.run s (xs.map Op.push) = List.replicate xs.length Obs.unit := by
  induction xs generalizing s with
  | nil => rfl
  | cons x xs ih => rw [List.map_cons, run, ih, List.length_cons, List.replicate_succ]; rfl

end Impl

/-- The list stack, top first: the specification.
Source: none: infrastructure
Kind: D -/
def listStack : Impl (List α) α where
  push l a := a :: l
  pop l := (l.head?, l.tail)
  peek l n := l[n]?
  len l := l.length

/-- Pushing a list onto the list stack puts it on top, last element first.
Source: none: infrastructure
Kind: L -/
theorem listStack_exec_pushes (xs l : List α) :
    listStack.exec l (xs.map Op.push) = xs.reverse ++ l := by
  induction xs generalizing l with
  | nil => rfl
  | cons x xs ih =>
    rw [List.map_cons, Impl.exec, ih, List.reverse_cons, List.append_assoc]
    rfl

/-- A guard on the implementation's state and the list holds before every operation of a run.
Source: none: infrastructure
Kind: D -/
def Guarded (I : Impl σ α) (G : σ → List α → Op α → Prop) :
    σ → List α → List (Op α) → Prop
  | _, _, [] => True
  | s, l, op :: ops => G s l op ∧ Guarded I G (I.step s op).2 (listStack.step l op).2 ops

/-- Every guarded step from related states keeps the relation and shows what the list stack
shows.
Source: none: infrastructure
Kind: D -/
def SimulatesStep (I : Impl σ α) (R : σ → List α → Prop) (G : σ → List α → Op α → Prop) :
    Prop :=
  ∀ s l op, R s l → G s l op →
    (I.step s op).1 = (listStack.step l op).1 ∧ R (I.step s op).2 (listStack.step l op).2

section simulation

variable {I : Impl σ α} {R : σ → List α → Prop} {G : σ → List α → Op α → Prop}

/-- **Simulation.** An implementation whose guarded steps keep a relation with the list stack
shows what the list stack shows on every guarded run from related states.
Source: none: infrastructure
Kind: L -/
theorem run_eq_of_simulatesStep (h : SimulatesStep I R G) :
    ∀ {ops : List (Op α)} {s : σ} {l : List α}, R s l → Guarded I G s l ops →
      I.run s ops = listStack.run l ops
  | [], _, _, _, _ => rfl
  | op :: ops, s, l, hR, ⟨hG, hrest⟩ => by
    obtain ⟨hobs, hR'⟩ := h s l op hR hG
    rw [Impl.run, Impl.run, hobs, run_eq_of_simulatesStep h hR' hrest]

/-- A guard that holds at every state before each operation of a list guards its runs.
Source: none: infrastructure
Kind: L -/
theorem Guarded.of_forall_mem {ops : List (Op α)} (hG : ∀ op ∈ ops, ∀ s l, G s l op) (s : σ)
    (l : List α) : Guarded I G s l ops := by
  induction ops generalizing s l with
  | nil => trivial
  | cons op ops ih =>
    exact ⟨hG op List.mem_cons_self s l, ih (fun op' h => hG op' (List.mem_cons_of_mem _ h)) _ _⟩

end simulation

end Stack
