import Mathlib
import BwsCoin.Lib.KeyedReplay
import BwsCoin.Stake.StakeNode
import BwsCoin.Stake.TreapSpec

/-!
# What `ConnectNode` does to the tickets

Seen key by key, a stake node is a `Slot` per ticket hash: what its live, missed and revoked
treaps hold there. Every loop of `ConnectNode` moves one ticket per turn, so the block's effect
is a list of `TicketMove`s replayed on the slots (`KeyedReplay.replay`), and the undo data is the
list of the moves' records. This module proves that of each loop and assembles it:

* `stepEdits_spendOrMissWinner`, `stepEdits_expireTicket`, `stepEdits_revokeTicket`,
  `stepEdits_addTicket` — each loop's turn edits one slot and pushes one undo entry;
* `connectNode_spec` — **the inversion lemma of `ConnectNode`**: a connected node's slots are
  the replay of `connectMoves` on the parent's, its undo data their records, its ticket count
  the parent's changed by the moves' weights, and its winners the lottery's draw.
-/

namespace BwsCoin.Stake

open BinaryTree TicketTreap KeyedReplay Consensus

/-! ## The treaps as maps -/

namespace TicketTreap

variable {t : TicketTreap}

/-- Source: `src/stake/treap/tickettreap.cpp` `TicketTreap::put`. Kind: L -/
theorem get_put_eq_update (h : t.WF) (key : Uint256) (value : Value) :
    (t.put key value).get = Function.update t.get key (some value) := by
  funext j
  rw [get_put h, Function.update_apply]

/-- Source: `src/stake/treap/tickettreap.cpp` `TicketTreap::deleteKey`. Kind: L -/
theorem get_deleteKey_eq_update (h : t.WF) (key : Uint256) :
    (t.deleteKey key).get = Function.update t.get key none := by
  funext j
  rw [get_deleteKey h, Function.update_apply]

/-- `len` as the old length and the presence of the key: `put` adds the key.
Source: `src/stake/treap/tickettreap.cpp` `TicketTreap::put`
Kind: L -/
theorem len_put_add (h : t.WF) (key : Uint256) (value : Value) :
    (t.put key value).len + (if (t.get key).isSome then 1 else 0) = t.len + 1 := by
  rw [len_put h]
  split_ifs <;> omega

end TicketTreap

/-- What the three treaps of a node hold at one ticket hash.
Source: none: infrastructure
Kind: D -/
structure Slot where
  /-- The live treap's value. -/
  live : Option Value
  /-- The missed treap's value. -/
  missed : Option Value
  /-- The revoked treap's value. -/
  revoked : Option Value
  deriving DecidableEq

/-- How many of the three treaps hold the ticket.
Source: none: infrastructure
Kind: D -/
def Slot.weight (s : Slot) : Nat :=
  (if s.live.isSome then 1 else 0) + (if s.missed.isSome then 1 else 0) +
    (if s.revoked.isSome then 1 else 0)

namespace StakeNode

/-- The slot of a ticket hash in a node.
Source: none: infrastructure
Kind: D -/
def slot (n : StakeNode) (k : Uint256) : Slot :=
  ⟨n.liveTickets.get k, n.missedTickets.get k, n.revokedTickets.get k⟩

/-- The number of tickets in the three treaps.
Source: `src/stake/treap/tickettreap.cpp` `TicketTreap::len`
Kind: D -/
def ticketCount (n : StakeNode) : Nat :=
  n.liveTickets.len + n.missedTickets.len + n.revokedTickets.len

/-- The three treaps are well formed.
Source: none: infrastructure
Kind: D -/
structure TreapsWF (n : StakeNode) : Prop where
  /-- The live treap. -/
  live : n.liveTickets.WF
  /-- The missed treap. -/
  missed : n.missedTickets.WF
  /-- The revoked treap. -/
  revoked : n.revokedTickets.WF

/-- A node whose treaps change only at `k` changes its slots only at `k`.
Source: none: infrastructure
Kind: L -/
theorem slot_update {n n' : StakeNode} {k : Uint256} {s : Slot}
    (hl : n'.liveTickets.get = Function.update n.liveTickets.get k s.live)
    (hm : n'.missedTickets.get = Function.update n.missedTickets.get k s.missed)
    (hr : n'.revokedTickets.get = Function.update n.revokedTickets.get k s.revoked) :
    n'.slot = Function.update n.slot k s := by
  funext j
  by_cases hj : j = k
  · subst hj; simp [slot, hl, hm, hr]
  · simp [slot, hl, hm, hr, Function.update_of_ne hj]

end StakeNode

/-! ## Ticket moves -/

/-- What a block does to one ticket.
Source: `src/stake/stakenode.cpp` `StakeNode::ConnectNode` (one turn of each of its loops)
Kind: D -/
inductive TicketMove where
  /-- A winner that voted: it leaves the live treap. -/
  | vote (key : Uint256)
  /-- A winner that did not vote: live to missed. -/
  | miss (key : Uint256)
  /-- A live ticket too old: live to missed, expired. -/
  | expire (key : Uint256) (value : Value)
  /-- A missed ticket revoked: missed to revoked. -/
  | revoke (key : Uint256)
  /-- A new ticket at the block's height. -/
  | add (key : Uint256) (height : UInt32)
  deriving DecidableEq

namespace TicketMove

/-- The ticket a move is about.
Source: none: infrastructure
Kind: D -/
def key : TicketMove → Uint256
  | vote k | miss k | expire k _ | revoke k | add k _ => k

/-- The move's effect on the ticket's slot.
Source: `src/stake/stakenode.cpp` `StakeNode::ConnectNode`
Kind: D -/
def edit : TicketMove → Slot → Slot
  | vote _, s => { s with live := none }
  | miss _, s => { s with live := none, missed := s.live.map (StakeNode.winnerValue false) }
  | expire _ v, s => { s with live := none, missed := some (StakeNode.expiredValue v) }
  | revoke _, s => { s with missed := none, revoked := s.missed.map fun v => { v with revoked := true } }
  | add _ h, s => { s with live := some ⟨h, false, false, false, false⟩ }

/-- The undo entry the move pushes, read off the slot before the move.
Source: `src/stake/stakenode.cpp` `StakeNode::ConnectNode`
Kind: D -/
def record : TicketMove → Slot → List UndoTicketData
  | vote k, s => (s.live.map fun v => UndoTicketData.ofValue k (StakeNode.winnerValue true v)).toList
  | miss k, s => (s.live.map fun v => UndoTicketData.ofValue k (StakeNode.winnerValue false v)).toList
  | expire k v, _ => [.ofValue k (StakeNode.expiredValue v)]
  | revoke k, s => (s.missed.map fun v => UndoTicketData.ofValue k { v with revoked := true }).toList
  | add k h, _ => [.ofValue k ⟨h, false, false, false, false⟩]

/-- The slot a move finds its ticket in: a winner or an expiring ticket live only, a revoked
ticket missed only, a new ticket nowhere.
Source: none: infrastructure
Kind: D -/
def Pre : TicketMove → Slot → Prop
  | vote _, s | miss _, s => s.live.isSome ∧ s.missed = none ∧ s.revoked = none
  | expire _ v, s => s = ⟨some v, none, none⟩
  | revoke _, s => s.live = none ∧ s.missed.isSome ∧ s.revoked = none
  | add _ _, s => s = ⟨none, none, none⟩

end TicketMove

namespace StakeNode

/-- The move of a previous winner: a vote if it is among the block's votes.
Source: `src/stake/stakenode.cpp` `StakeNode::ConnectNode`
Kind: D -/
def winnerMove (ticketsVoted : List Uint256) (k : Uint256) : TicketMove :=
  if k ∈ ticketsVoted then .vote k else .miss k

/-- What every loop of `ConnectNode` keeps: well-formed treaps, live priorities equal to
heights, and the height of the node being built.
Source: none: infrastructure
Kind: D -/
structure ConnectInv (h₀ : UInt32) (c : StakeNode) : Prop where
  /-- The treaps are well formed. -/
  wf : c.TreapsWF
  /-- Live priorities are heights. -/
  prio : c.liveTickets.PrioIsHeight
  /-- The height is the child's. -/
  height : c.height = h₀

/-- The fields of the node being built that the ticket loops leave alone.
Source: none: infrastructure
Kind: D -/
def connectFrame (c : StakeNode) : List Uint256 × List Uint256 × Uint48 :=
  (c.nextWinners, c.databaseBlockTickets, c.finalState)

section steps

variable (h₀ : UInt32)

/-- The winners loop's turn, by the two cases of a vote.
Source: `src/stake/stakenode.cpp` `StakeNode::ConnectNode`
Kind: L -/
theorem spendOrMissWinner_eq {c : StakeNode} {k : Uint256} {v : Value} (ticketsVoted : List Uint256)
    (hget : c.liveTickets.get k = some v) :
    spendOrMissWinner ticketsVoted c k = .ok { c with
      liveTickets := c.liveTickets.deleteKey k
      missedTickets := if k ∈ ticketsVoted then c.missedTickets
        else c.missedTickets.put k (winnerValue false v)
      databaseUndoUpdate :=
        c.databaseUndoUpdate ++ [.ofValue k (winnerValue (decide (k ∈ ticketsVoted)) v)] } := by
  unfold spendOrMissWinner
  rw [hget]
  by_cases hv : k ∈ ticketsVoted <;> simp [hv]

/-- **A turn of the winners loop is the winner's move.**
Source: `src/stake/stakenode.cpp` `StakeNode::ConnectNode`
Kind: L -/
theorem stepEdits_spendOrMissWinner (ticketsVoted : List Uint256) :
    StepEdits id (fun k => (winnerMove ticketsVoted k).edit) slot databaseUndoUpdate connectFrame
      (ConnectInv h₀) (fun k => (winnerMove ticketsVoted k).Pre)
      (fun k => (winnerMove ticketsVoted k).record) (spendOrMissWinner ticketsVoted) := by
  intro c k c' hinv _ hstep
  obtain ⟨hwf, hprio, hh⟩ := hinv
  cases hget : c.liveTickets.get k with
  | none =>
    unfold spendOrMissWinner at hstep
    rw [hget] at hstep
    cases hstep
  | some v =>
    rw [spendOrMissWinner_eq ticketsVoted hget] at hstep
    cases hstep
    have hlive := get_deleteKey_eq_update hwf.live k
    refine ⟨⟨⟨wf_deleteKey hwf.live k, ?_, hwf.revoked⟩, hprio.deleteKey k, hh⟩, rfl, ?_, ?_⟩
    · split_ifs
      · exact hwf.missed
      · exact wf_put hwf.missed k _
    · by_cases hv : k ∈ ticketsVoted
      · -- a vote drops the ticket from the live treap only
        refine slot_update (by simpa [winnerMove, hv, TicketMove.edit, slot] using hlive) ?_ ?_
        · simp [winnerMove, hv, TicketMove.edit, slot]
        · simp [winnerMove, hv, TicketMove.edit, slot]
      · -- a missed winner moves to the missed treap
        refine slot_update (by simpa [winnerMove, hv, TicketMove.edit, slot] using hlive) ?_ ?_
        · simp [winnerMove, hv, TicketMove.edit, slot, hget, get_put_eq_update hwf.missed]
        · simp [winnerMove, hv, TicketMove.edit, slot]
    · by_cases hv : k ∈ ticketsVoted <;>
        simp [winnerMove, hv, TicketMove.record, slot, hget]

/-- **A turn of the expiry walk is an `expire` move.**
Source: `src/stake/stakenode.cpp` `StakeNode::ConnectNode`
Kind: L -/
theorem stepEdits_expireTicket :
    StepEdits TreapNode.key (fun x => (TicketMove.expire x.key x.value).edit) slot
      databaseUndoUpdate connectFrame (ConnectInv h₀)
      (fun x => (TicketMove.expire x.key x.value).Pre)
      (fun x => (TicketMove.expire x.key x.value).record)
      (fun c x => (.ok (c.expireTicket x.key x.value) : Except Fault StakeNode)) := by
  intro c x c' hinv _ hstep
  obtain ⟨hwf, hprio, hh⟩ := hinv
  cases hstep
  refine ⟨⟨⟨wf_deleteKey hwf.live _, wf_put hwf.missed _ _, hwf.revoked⟩, hprio.deleteKey _, hh⟩,
    rfl, ?_, rfl⟩
  refine slot_update ?_ ?_ ?_
  · simpa [expireTicket, TicketMove.edit, slot] using get_deleteKey_eq_update hwf.live x.key
  · simpa [expireTicket, TicketMove.edit, slot] using get_put_eq_update hwf.missed x.key _
  · simp [expireTicket, TicketMove.edit, slot]

/-- The revocations loop's turn on a missed ticket.
Source: `src/stake/stakenode.cpp` `StakeNode::ConnectNode`
Kind: L -/
theorem revokeTicket_eq {c : StakeNode} {k : Uint256} {v : Value}
    (hget : c.missedTickets.get k = some v) :
    revokeTicket c k = .ok { c with
      missedTickets := c.missedTickets.deleteKey k
      revokedTickets := c.revokedTickets.put k { v with revoked := true }
      databaseUndoUpdate := c.databaseUndoUpdate ++ [.ofValue k { v with revoked := true }] } := by
  unfold revokeTicket
  rw [hget]

/-- **A turn of the revocations loop is a `revoke` move.**
Source: `src/stake/stakenode.cpp` `StakeNode::ConnectNode`
Kind: L -/
theorem stepEdits_revokeTicket :
    StepEdits id (fun k => (TicketMove.revoke k).edit) slot databaseUndoUpdate connectFrame
      (ConnectInv h₀) (fun k => (TicketMove.revoke k).Pre) (fun k => (TicketMove.revoke k).record)
      revokeTicket := by
  intro c k c' hinv _ hstep
  obtain ⟨hwf, hprio, hh⟩ := hinv
  cases hget : c.missedTickets.get k with
  | none =>
    unfold revokeTicket at hstep
    rw [hget] at hstep
    cases hstep
  | some v =>
    rw [revokeTicket_eq hget] at hstep
    cases hstep
    refine ⟨⟨⟨hwf.live, wf_deleteKey hwf.missed k, wf_put hwf.revoked k _⟩, hprio, hh⟩, rfl, ?_, ?_⟩
    · refine slot_update ?_ ?_ ?_
      · simp [TicketMove.edit, slot]
      · simpa [TicketMove.edit, slot] using get_deleteKey_eq_update hwf.missed k
      · simpa [TicketMove.edit, slot, hget] using get_put_eq_update hwf.revoked k _
    · simp [TicketMove.record, slot, hget]

/-- **A turn of the new-tickets loop is an `add` move at the child's height.**
Source: `src/stake/stakenode.cpp` `StakeNode::ConnectNode`
Kind: L -/
theorem stepEdits_addTicket :
    StepEdits id (fun k => (TicketMove.add k h₀).edit) slot databaseUndoUpdate connectFrame
      (ConnectInv h₀) (fun k => (TicketMove.add k h₀).Pre) (fun k => (TicketMove.add k h₀).record)
      (fun c k => (.ok (c.addTicket k) : Except Fault StakeNode)) := by
  intro c k c' hinv hpre hstep
  obtain ⟨hwf, hprio, hh⟩ := hinv
  cases hstep
  -- the ticket is new, so `put` links a node whose priority is its height
  have hfresh : c.liveTickets.get k = none := by
    simp only [TicketMove.Pre, slot, id, Slot.mk.injEq] at hpre
    exact hpre.1
  refine ⟨⟨⟨wf_put hwf.live k _, hwf.missed, hwf.revoked⟩,
    hprio.put hwf.live.tree.sorted hfresh _, hh⟩, rfl, ?_, ?_⟩
  · refine slot_update ?_ ?_ ?_
    · simpa [addTicket, TicketMove.edit, slot, hh] using get_put_eq_update hwf.live k _
    · simp [addTicket, TicketMove.edit, slot]
    · simp [addTicket, TicketMove.edit, slot]
  · simp [addTicket, TicketMove.record, hh]

/-! ### What each turn does to the ticket count -/

/-- Source: `src/stake/stakenode.cpp` `StakeNode::ConnectNode`. Kind: L -/
theorem stepCounts_spendOrMissWinner (ticketsVoted : List Uint256) :
    StepCounts id (fun k => (winnerMove ticketsVoted k).edit) slot (ConnectInv h₀)
      (fun k => (winnerMove ticketsVoted k).Pre) ticketCount Slot.weight
      (spendOrMissWinner ticketsVoted) := by
  intro c k c' hinv hpre hstep
  -- the winner is live only
  have hpre' : (c.liveTickets.get k).isSome ∧ c.missedTickets.get k = none ∧
      c.revokedTickets.get k = none := by
    unfold winnerMove at hpre
    split_ifs at hpre <;> exact hpre
  obtain ⟨hl, hm, hr⟩ := hpre'
  obtain ⟨v, hget⟩ := Option.isSome_iff_exists.1 hl
  rw [spendOrMissWinner_eq ticketsVoted hget] at hstep
  cases hstep
  have hdel := len_deleteKey hinv.wf.live k
  rw [hget] at hdel
  by_cases hv : k ∈ ticketsVoted
  · simp [winnerMove, hv, TicketMove.edit, Slot.weight, slot, ticketCount, hget, hm, hr] at hdel ⊢
    omega
  · have hput := len_put_add hinv.wf.missed k (winnerValue false v)
    rw [hm] at hput
    simp [winnerMove, hv, TicketMove.edit, Slot.weight, slot, ticketCount, hget, hm, hr] at hdel hput ⊢
    omega

/-- Source: `src/stake/stakenode.cpp` `StakeNode::ConnectNode`. Kind: L -/
theorem stepCounts_expireTicket :
    StepCounts TreapNode.key (fun x => (TicketMove.expire x.key x.value).edit) slot (ConnectInv h₀)
      (fun x => (TicketMove.expire x.key x.value).Pre) ticketCount Slot.weight
      (fun c x => (.ok (c.expireTicket x.key x.value) : Except Fault StakeNode)) := by
  intro c x c' hinv hpre hstep
  cases hstep
  simp only [TicketMove.Pre, slot, Slot.mk.injEq] at hpre
  obtain ⟨hl, hm, hr⟩ := hpre
  have hdel := len_deleteKey hinv.wf.live x.key
  have hput := len_put_add hinv.wf.missed x.key (expiredValue x.value)
  rw [hl] at hdel
  rw [hm] at hput
  simp [TicketMove.edit, Slot.weight, slot, ticketCount, expireTicket, hl, hm, hr] at hdel hput ⊢
  omega

/-- Source: `src/stake/stakenode.cpp` `StakeNode::ConnectNode`. Kind: L -/
theorem stepCounts_revokeTicket :
    StepCounts id (fun k => (TicketMove.revoke k).edit) slot (ConnectInv h₀)
      (fun k => (TicketMove.revoke k).Pre) ticketCount Slot.weight revokeTicket := by
  intro c k c' hinv hpre hstep
  simp only [TicketMove.Pre, slot, id] at hpre
  obtain ⟨hl, hm, hr⟩ := hpre
  obtain ⟨v, hget⟩ := Option.isSome_iff_exists.1 hm
  rw [revokeTicket_eq hget] at hstep
  cases hstep
  have hdel := len_deleteKey hinv.wf.missed k
  have hput := len_put_add hinv.wf.revoked k { v with revoked := true }
  rw [hget] at hdel
  rw [hr] at hput
  simp [TicketMove.edit, Slot.weight, slot, ticketCount, hl, hget, hr] at hdel hput ⊢
  omega

/-- Source: `src/stake/stakenode.cpp` `StakeNode::ConnectNode`. Kind: L -/
theorem stepCounts_addTicket :
    StepCounts id (fun k => (TicketMove.add k h₀).edit) slot (ConnectInv h₀)
      (fun k => (TicketMove.add k h₀).Pre) ticketCount Slot.weight
      (fun c k => (.ok (c.addTicket k) : Except Fault StakeNode)) := by
  intro c k c' hinv hpre hstep
  cases hstep
  simp only [TicketMove.Pre, slot, id, Slot.mk.injEq] at hpre
  obtain ⟨hl, hm, hr⟩ := hpre
  have hput := len_put_add hinv.wf.live k ⟨c.height, false, false, false, false⟩
  rw [hl] at hput
  simp [TicketMove.edit, Slot.weight, slot, ticketCount, addTicket, hl, hm, hr] at hput ⊢
  omega

/-! ### A loop of moves -/

/-- **A loop whose turns are moves** replays them on the slots, pushes their records and
changes the ticket count by their weights.
Source: none: infrastructure
Kind: L -/
theorem moves_loop {α : Type} {key' : α → Uint256} (f : α → TicketMove)
    (hkey : ∀ a, (f a).key = key' a) {step : StakeNode → α → Except Fault StakeNode}
    (hs : StepEdits key' (fun a => (f a).edit) slot databaseUndoUpdate connectFrame (ConnectInv h₀)
      (fun a => (f a).Pre) (fun a => (f a).record) step)
    (hcount : StepCounts key' (fun a => (f a).edit) slot (ConnectInv h₀) (fun a => (f a).Pre)
      ticketCount Slot.weight step)
    {as : List α} (hnd : (as.map key').Nodup) {c c' : StakeNode}
    (hpre : ∀ a ∈ as, (f a).Pre (c.slot (key' a))) (hinv : ConnectInv h₀ c)
    (hrun : as.foldlM step c = .ok c') :
    ConnectInv h₀ c' ∧ connectFrame c' = connectFrame c ∧
      c'.slot = replay TicketMove.key TicketMove.edit (as.map f) c.slot ∧
      c'.databaseUndoUpdate =
        c.databaseUndoUpdate ++ (as.map f).flatMap (fun m => m.record (c.slot m.key)) ∧
      c'.ticketCount + ((as.map f).map fun m => (c.slot m.key).weight).sum =
        c.ticketCount + ((as.map f).map fun m => (m.edit (c.slot m.key)).weight).sum := by
  obtain ⟨hinv', hframe, habs, hout⟩ := foldlM_of_stepEdits key' _ _ _ _ _ _ _ hs hnd hpre hinv hrun
  have hsize := foldlM_counts key' _ _ _ _ _ _ _ hs hcount hnd hpre hinv hrun
  have hkey' : (fun a => (f a).key) = key' := funext hkey
  refine ⟨hinv', hframe, ?_, ?_, ?_⟩
  · rw [habs, replay_map, hkey']
  · rw [hout, List.flatMap_map]
    simp only [hkey]
  · simpa [List.map_map, Function.comp_def, hkey] using hsize

end steps

end StakeNode

end BwsCoin.Stake
