import Mathlib
import BwsCoin.Lib.SwapSort
import BwsCoin.Primitives.Transaction

/-!
# The order of the ticket ancestors in a new block

`BlockAssembler::CreateNewBlock` (`src/miner.cpp`) adds the unconfirmed ancestors of the tickets
it has included to the block after them. It copies the set of ancestors into a vector (the set
is ordered by transaction hash) and orders the vector by dependency: while some transaction
has an input that spends an output of a transaction after it, it swaps the first such pair and
starts over. A watchdog, `static_cast<int>(std::pow(2, n))` for `n` ancestors, counts the
swaps down, and the reordering throws when it reaches `0`.

The swap loop is `SwapSort.swapLoop` on the relation "spends an output of" (`spendsOutputOf`);
the transaction hash, which the source caches in the transaction, is a parameter `getHash`.

* For `n ≤ 30` ancestors whose spends relation has no cycle, the reordering returns a
  permutation of them in which no transaction stands before one whose output it spends
  (`reorderTicketAncestors_ok`): the loop swaps fewer times than there are pairs out of order
  under the transitive closure of the relation, fewer than `2 ^ n`.
* From `n = 31` on, `std::pow(2, n)` is `2^31` or more, which `int` cannot hold, and the
  conversion is undefined, whatever the transactions (`reorderTicketAncestors_undefined_from_31`).
  The mempool does not bound the number of ancestors collected here (`nNoLimit`).
-/

namespace BwsCoin.Mining

open Primitives

/-- `tx` spends an output of `prev`: some input of `tx` names the hash of `prev`.
Source: `src/miner.cpp` `BlockAssembler::CreateNewBlock` (the innermost loop over `vin`)
Kind: D -/
def spendsOutputOf (getHash : CTransaction → Uint256) (tx prev : CTransaction) : Bool :=
  tx.vin.any fun txin => txin.prevout.hash == getHash prev

/-- The reordering of the ticket ancestors: nothing to do for none; otherwise the watchdog is
`2 ^ n` converted to `int`, the swap loop runs, and a watchdog at `0` throws.
Source: `src/miner.cpp` `BlockAssembler::CreateNewBlock` (the reordering of `ticketAncestors`)
Kind: D
Fidelity: exact; `std::pow(2, n)` is exact in `double`, and its conversion to `int` is
undefined once it exceeds `INT_MAX`, from `n = 31` on -/
def reorderTicketAncestors (getHash : CTransaction → Uint256)
    (reorderedTicketAncestors : List CTransaction) : Except Fault (List CTransaction) :=
  let n := reorderedTicketAncestors.length
  if n = 0 then .ok reorderedTicketAncestors
  else if 31 ≤ n then .error (.undefined "floating-point value out of the range of int")
  else
    match SwapSort.swapLoop (spendsOutputOf getHash) (2 ^ n) reorderedTicketAncestors with
    | (0, _) =>
      .error (.raise
        ("CreateNewBlock: Split transaction reordering failed (" ++ toString n ++ " transactions)"))
    | (_, reordered) => .ok reordered

/-- **The reordering on `30` or fewer acyclic ancestors.** When no chain of spends among the
ancestors leads back to where it started, the reordering returns a permutation of them in which
no transaction stands before one whose output it spends.
Source: `src/miner.cpp` `ReorderTicketAncestors`
Kind: P -/
theorem reorderTicketAncestors_ok (getHash : CTransaction → Uint256)
    (reorderedTicketAncestors : List CTransaction)
    (hacyc : SwapSort.AcyclicOn (spendsOutputOf getHash) reorderedTicketAncestors)
    (hn : reorderedTicketAncestors.length ≤ 30) :
    ∃ reordered, reorderTicketAncestors getHash reorderedTicketAncestors = .ok reordered ∧
      reordered.Perm reorderedTicketAncestors ∧
      reordered.Pairwise (fun tx prev => spendsOutputOf getHash tx prev = false) := by
  obtain ⟨w', reordered, hloop, hw', hperm, hpair⟩ := SwapSort.swapLoop_two_pow hacyc
  refine ⟨reordered, ?_, hperm, hpair⟩
  unfold reorderTicketAncestors
  dsimp only
  split_ifs with h0 h31
  · -- no ancestors: the list is its own reordering
    rw [List.length_eq_zero_iff] at h0
    subst h0
    rw [List.perm_nil.mp hperm]
  · omega
  · obtain ⟨w, rfl⟩ := Nat.exists_eq_succ_of_ne_zero hw'.ne'
    simp only [hloop]

/-- The `k`-th transaction of a chain of spends: from `k = 1` on it spends output `0` of a
transaction with hash `k - 1`; its lock time is `k`.
Source: none: test data
Kind: D -/
def chainTx (k : Nat) : CTransaction :=
  ⟨if k = 0 then [] else [⟨⟨Uint256.ofNat (k - 1), 0⟩, [], 0, ⟨[]⟩⟩], [], 1, k.toUInt32, 0⟩

/-- A chain of three spends given in reverse order.
Source: `src/miner.cpp` `ReorderTicketAncestors`
Kind: W -/
theorem reorderTicketAncestors_ok_chain :
    ∃ reordered, reorderTicketAncestors (fun tx => Uint256.ofNat tx.nLockTime.toNat)
        [chainTx 2, chainTx 1, chainTx 0] = .ok reordered ∧
      reordered.Perm [chainTx 2, chainTx 1, chainTx 0] ∧
      reordered.Pairwise (fun tx prev =>
        spendsOutputOf (fun tx => Uint256.ofNat tx.nLockTime.toNat) tx prev = false) :=
  reorderTicketAncestors_ok _ _ (SwapSort.acyclicOn_of_rank (fun tx => tx.nLockTime.toNat)
    (by decide)) (by decide)

/-- The chain given newest first comes out oldest first, after three swaps. -/
example : reorderTicketAncestors (fun tx => Uint256.ofNat tx.nLockTime.toNat)
    [chainTx 2, chainTx 1, chainTx 0] = .ok [chainTx 0, chainTx 1, chainTx 2] := by decide

/-- **The watchdog of `31` or more ancestors is undefined.** `std::pow(2, n)` is then at least
`2^31`, which `int` cannot hold, whatever the transactions.
Source: `src/miner.cpp` `ReorderTicketAncestors` (`std::pow(2, n)`)
Kind: P -/
theorem reorderTicketAncestors_undefined_from_31 (getHash : CTransaction → Uint256)
    (reorderedTicketAncestors : List CTransaction) (hn : 31 ≤ reorderedTicketAncestors.length) :
    reorderTicketAncestors getHash reorderedTicketAncestors =
      .error (.undefined "floating-point value out of the range of int") := by
  unfold reorderTicketAncestors
  dsimp only
  rw [if_neg (by omega), if_pos hn]

/-- Thirty-one ancestors that spend nothing among themselves.
Source: `src/miner.cpp` `ReorderTicketAncestors`
Kind: W -/
theorem reorderTicketAncestors_undefined_from_31_independent :
    SwapSort.AcyclicOn (spendsOutputOf fun tx => Uint256.ofNat tx.nLockTime.toNat)
        (List.replicate 31 (chainTx 0)) ∧
      reorderTicketAncestors (fun tx => Uint256.ofNat tx.nLockTime.toNat)
        (List.replicate 31 (chainTx 0)) =
        .error (.undefined "floating-point value out of the range of int") :=
  ⟨SwapSort.acyclicOn_of_rank (fun _ => 0) (by simp [spendsOutputOf, chainTx]),
    reorderTicketAncestors_undefined_from_31 _ _ (by simp)⟩

end BwsCoin.Mining
