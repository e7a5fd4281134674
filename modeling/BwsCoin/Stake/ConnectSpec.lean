import BwsCoin.Stake.StakeNodeSpec
import BwsCoin.Stake.TreapWalk

/-!
# The inversion lemma of `ConnectNode`

`connectNode_spec` says everything a successful `ConnectNode` did, from the parent's slots:
the block's moves `connectMoves` (the previous winners, the tickets the expiry walk found, the
revocations, the new tickets) have distinct tickets, each finds its ticket where it expects it,
their replay gives the child's slots, their records the child's undo data and their weights the
child's ticket count; the walk found exactly the live non-winners of height at most
`toExpireHeight`; and the winners are the lottery's draw (or none before the lottery). Every
later result about stake nodes starts from this lemma and never unfolds `connectNode`.

The lemma needs the parent to satisfy `Inv` (well-formed treaps, consistent slots, live
winners without repeats) and the block to satisfy `ConnectPre` (revocations of missed tickets,
distinct new tickets that no treap holds).
-/

namespace BwsCoin.Stake

open BinaryTree TicketTreap KeyedReplay Consensus

/-! ## Tickets of a well-formed treap -/

namespace TicketTreap

variable {t : TicketTreap}

/-- Source: `src/stake/treap/tickettreap.cpp` `TicketTreap::get`. Kind: L -/
theorem get_of_mem (h : t.WF) {x : TreapNode} (hx : x ∈ t.root.inorder) :
    t.get x.key = some x.value := by
  rw [get_eq_find? h.tree.sorted]
  exact SortedKV.find?_of_mem (keySorted_iff_sorted.1 h.tree.sorted) (mem_entries.2 ⟨x, hx, rfl⟩)

/-- Source: `src/stake/treap/tickettreap.cpp` `TicketTreap::get`. Kind: L -/
theorem exists_mem_of_get (h : t.WF) {k : Uint256} {v : Value} (hk : t.get k = some v) :
    ∃ x ∈ t.root.inorder, x.key = k ∧ x.value = v := by
  unfold get at hk
  cases hg : t.getNode k with
  | none => rw [hg] at hk; cases hk
  | some d =>
    rw [hg] at hk
    obtain ⟨hd, hdk⟩ := (getNode_spec h.tree.sorted k).2 d hg
    exact ⟨d, hd, hdk, by simpa using hk⟩

/-- Source: none: infrastructure. Kind: L -/
theorem nodup_keys_inorder (h : t.WF) : (t.root.inorder.map TreapNode.key).Nodup :=
  h.tree.sorted.imp ne_of_lt

end TicketTreap

/-! ## Consistent slots -/

/-- A consistent slot: the ticket is in at most one treap, with the flags of that treap.
Source: `src/stake/stakenode.h` `UndoTicketData` (the flag combinations of each bucket)
Kind: D -/
def Slot.OK : Slot → Prop
  | ⟨none, none, none⟩ => True
  | ⟨some v, none, none⟩ => v.missed = false ∧ v.revoked = false ∧ v.spent = false ∧ v.expired = false
  | ⟨none, some v, none⟩ => v.missed = true ∧ v.revoked = false ∧ v.spent = false
  | ⟨none, none, some v⟩ => v.missed = true ∧ v.revoked = true
  | _ => False

namespace Slot

variable {s : Slot} {v : Value}

/-- Source: none: infrastructure. Kind: L -/
theorem OK.of_live (h : s.OK) (hl : s.live = some v) :
    s.missed = none ∧ s.revoked = none ∧
      v.missed = false ∧ v.revoked = false ∧ v.spent = false ∧ v.expired = false := by
  obtain ⟨l, m, r⟩ := s
  simp only at hl
  subst hl
  cases m <;> cases r <;> simp_all [Slot.OK]

/-- Source: none: infrastructure. Kind: L -/
theorem OK.of_missed (h : s.OK) (hm : s.missed = some v) :
    s.live = none ∧ s.revoked = none ∧ v.missed = true ∧ v.revoked = false ∧ v.spent = false := by
  obtain ⟨l, m, r⟩ := s
  simp only at hm
  subst hm
  cases l <;> cases r <;> simp_all [Slot.OK]

/-- Source: none: infrastructure. Kind: L -/
theorem OK.of_revoked (h : s.OK) (hr : s.revoked = some v) :
    s.live = none ∧ s.missed = none ∧ v.missed = true ∧ v.revoked = true := by
  obtain ⟨l, m, r⟩ := s
  simp only at hr
  subst hr
  cases l <;> cases m <;> simp_all [Slot.OK]

end Slot

namespace StakeNode

/-- The invariant `ConnectNode` needs of the parent.
Source: none: infrastructure
Kind: D -/
structure Inv (n : StakeNode) : Prop where
  /-- The treaps are well formed. -/
  wf : n.TreapsWF
  /-- Live priorities are heights. -/
  prio : n.liveTickets.PrioIsHeight
  /-- Every slot is consistent. -/
  slot_ok : ∀ k, (n.slot k).OK
  /-- The winners are distinct. -/
  winners_nodup : n.nextWinners.Nodup
  /-- The winners are live. -/
  winners_live : ∀ w ∈ n.nextWinners, (n.liveTickets.get w).isSome

/-- The block's side of the consensus rules that `ConnectNode` relies on: it revokes missed
tickets and adds distinct tickets that no treap holds.
Source: `src/validation.cpp` `checkAllowedRevocations`, `src/stake/stakenode.cpp`
`StakeNode::ConnectNode`
Kind: D -/
structure ConnectPre (n : StakeNode) (revokedTickets newTickets : List Uint256) : Prop where
  /-- Every revoked ticket is missed. -/
  revoked_missed : ∀ k ∈ revokedTickets, (n.missedTickets.get k).isSome
  /-- The new tickets are distinct. -/
  new_nodup : newTickets.Nodup
  /-- The new tickets are in no treap. -/
  new_fresh : ∀ k ∈ newTickets, n.slot k = ⟨none, none, none⟩

/-- A block that revokes nothing and buys nothing meets the preconditions.
Source: `src/stake/stakenode.cpp` `StakeNode::ConnectNode`
Kind: L -/
theorem ConnectPre.nil (n : StakeNode) : n.ConnectPre [] [] :=
  ⟨fun _ hk => absurd hk List.not_mem_nil, List.nodup_nil, fun _ hk => absurd hk List.not_mem_nil⟩

/-- The moves of the stake block of `ConnectNode`: the previous winners, the tickets the expiry
walk visits, the revocations.
Source: `src/stake/stakenode.cpp` `StakeNode::ConnectNode`
Kind: D -/
def stakeMoves (n : StakeNode) (ticketsVoted revokedTickets : List Uint256)
    (expired : List TreapNode) : List TicketMove :=
  n.nextWinners.map (winnerMove ticketsVoted) ++ expired.map (fun x => .expire x.key x.value) ++
    revokedTickets.map .revoke

/-- All the moves of a block.
Source: `src/stake/stakenode.cpp` `StakeNode::ConnectNode`
Kind: D -/
def connectMoves (p : Params) (n : StakeNode) (ticketsVoted revokedTickets newTickets : List Uint256)
    (expired : List TreapNode) : List TicketMove :=
  (if stakeEnabled p (n.height + 1) then stakeMoves n ticketsVoted revokedTickets expired else []) ++
    newTickets.map fun k => .add k (n.height + 1)

/-! ## Replays of moves -/

/-- A node reached from a start (its slots, undo data and ticket count) by the moves `ms`.
Source: none: infrastructure
Kind: D -/
structure Replays (s₀ : Uint256 → Slot) (u₀ : List UndoTicketData) (k₀ : Nat) (c : StakeNode)
    (ms : List TicketMove) : Prop where
  /-- The moves are about distinct tickets. -/
  nodup : (ms.map TicketMove.key).Nodup
  /-- Each move finds its ticket where it expects it. -/
  pre : ∀ m ∈ ms, m.Pre (s₀ m.key)
  /-- The slots are the replay. -/
  slot : c.slot = replay TicketMove.key TicketMove.edit ms s₀
  /-- The undo data is the records. -/
  undo : c.databaseUndoUpdate = u₀ ++ ms.flatMap fun m => m.record (s₀ m.key)
  /-- The ticket count changes by the weights. -/
  count : c.ticketCount + (ms.map fun m => (s₀ m.key).weight).sum =
    k₀ + (ms.map fun m => (m.edit (s₀ m.key)).weight).sum

/-- **Two loops in a row** replay their moves one after the other, when the second loop's
tickets are not the first's.
Source: none: infrastructure
Kind: L -/
theorem Replays.append {s₀ : Uint256 → Slot} {u₀ : List UndoTicketData} {k₀ : Nat}
    {c₁ c₂ : StakeNode} {ms₁ ms₂ : List TicketMove} (h₁ : Replays s₀ u₀ k₀ c₁ ms₁)
    (h₂ : Replays c₁.slot c₁.databaseUndoUpdate c₁.ticketCount c₂ ms₂)
    (hdisj : ∀ m ∈ ms₂, m.key ∉ ms₁.map TicketMove.key) :
    Replays s₀ u₀ k₀ c₂ (ms₁ ++ ms₂) := by
  -- the second loop meets its tickets as they were at the start
  have hsame : ∀ m ∈ ms₂, c₁.slot m.key = s₀ m.key := fun m hm => by
    rw [h₁.slot, replay_apply_of_not_mem _ _ (hdisj m hm)]
  have hcount₁ := h₁.count
  have hcount₂ := h₂.count
  rw [List.map_congr_left fun m hm => by rw [hsame m hm]] at hcount₂
  rw [List.map_congr_left (fun m hm => by rw [hsame m hm] :
    ∀ m ∈ ms₂, (m.edit (c₁.slot m.key)).weight = (m.edit (s₀ m.key)).weight)] at hcount₂
  refine ⟨?_, ?_, ?_, ?_, ?_⟩
  · rw [List.map_append, List.nodup_append]
    exact ⟨h₁.nodup, h₂.nodup, fun a ha b hb hab => by
      obtain ⟨m, hm, rfl⟩ := List.mem_map.1 hb
      exact hdisj m hm (hab ▸ ha)⟩
  · intro m hm
    rcases List.mem_append.1 hm with hm | hm
    · exact h₁.pre m hm
    · rw [← hsame m hm]; exact h₂.pre m hm
  · rw [h₂.slot, h₁.slot, replay_append]
  · rw [h₂.undo, h₁.undo, List.flatMap_append, List.append_assoc]
    congr 2
    exact List.flatMap_congr fun m hm => by rw [hsame m hm]
  · simp only [List.map_append, List.sum_append]
    omega

/-- A loop with no turns.
Source: none: infrastructure
Kind: L -/
theorem Replays.nil (c : StakeNode) : Replays c.slot c.databaseUndoUpdate c.ticketCount c [] :=
  ⟨List.nodup_nil, by simp, rfl, by simp, rfl⟩

/-- `moves_loop` in the form of `Replays`.
Source: none: infrastructure
Kind: L -/
theorem replays_of_loop {h₀ : UInt32} {α : Type} {key' : α → Uint256} (f : α → TicketMove)
    (hkey : ∀ a, (f a).key = key' a) {step : StakeNode → α → Except Fault StakeNode}
    (hs : StepEdits key' (fun a => (f a).edit) slot databaseUndoUpdate connectFrame (ConnectInv h₀)
      (fun a => (f a).Pre) (fun a => (f a).record) step)
    (hcount : StepCounts key' (fun a => (f a).edit) slot (ConnectInv h₀) (fun a => (f a).Pre)
      ticketCount Slot.weight step)
    {as : List α} (hnd : (as.map key').Nodup) {c c' : StakeNode}
    (hpre : ∀ a ∈ as, (f a).Pre (c.slot (key' a))) (hinv : ConnectInv h₀ c)
    (hrun : as.foldlM step c = .ok c') :
    ConnectInv h₀ c' ∧ connectFrame c' = connectFrame c ∧
      Replays c.slot c.databaseUndoUpdate c.ticketCount c' (as.map f) := by
  obtain ⟨hinv', hframe, hslot, hundo, hcnt⟩ := moves_loop h₀ f hkey hs hcount hnd hpre hinv hrun
  refine ⟨hinv', hframe, ⟨?_, ?_, hslot, hundo, hcnt⟩⟩
  · rw [List.map_map]
    convert hnd using 2
    exact funext hkey
  · intro m hm
    obtain ⟨a, ha, rfl⟩ := List.mem_map.1 hm
    rw [hkey]
    exact hpre a ha

/-! ## The loops of `ConnectNode` -/

/-- Source: none: infrastructure. Kind: L -/
@[simp] theorem winnerMove_key (ticketsVoted : List Uint256) (k : Uint256) :
    (winnerMove ticketsVoted k).key = k := by
  unfold winnerMove
  split_ifs <;> rfl

/-- A winner's move empties its live slot.
Source: none: infrastructure
Kind: L -/
theorem winnerMove_edit_live (ticketsVoted : List Uint256) (k : Uint256) (s : Slot) :
    ((winnerMove ticketsVoted k).edit s).live = none := by
  unfold winnerMove
  split_ifs <;> rfl

/-- A revocation after which the ticket is not missed cannot be repeated: the revocations loop
only removes tickets from the missed treap.
Source: `src/stake/stakenode.cpp` `StakeNode::ConnectNode`
Kind: L -/
theorem not_mem_of_revoked {c c' : StakeNode} {k : Uint256} {revs : List Uint256}
    (hwf : c.TreapsWF) (hk : c.missedTickets.get k = none)
    (h : revs.foldlM revokeTicket c = .ok c') : k ∉ revs := by
  induction revs generalizing c with
  | nil => simp
  | cons j revs ih =>
    rw [List.foldlM_cons] at h
    obtain ⟨c₁, hstep, hrest⟩ := except_bind_eq_ok.1 h
    cases hget : c.missedTickets.get j with
    | none =>
      unfold revokeTicket at hstep
      rw [hget] at hstep
      cases hstep
    | some v =>
      rw [revokeTicket_eq hget] at hstep
      have hc₁ := Except.ok.inj hstep
      have hjk : j ≠ k := fun e => by rw [e, hk] at hget; cases hget
      have hwf₁ : c₁.TreapsWF := by
        rw [← hc₁]; exact ⟨hwf.live, wf_deleteKey hwf.missed j, wf_put hwf.revoked j _⟩
      have hk₁ : c₁.missedTickets.get k = none := by
        rw [← hc₁]
        show (c.missedTickets.deleteKey j).get k = none
        rw [get_deleteKey hwf.missed, if_neg (Ne.symm hjk), hk]
      simp only [List.mem_cons, not_or]
      exact ⟨Ne.symm hjk, ih hwf₁ hk₁ hrest⟩

/-- The revocations of a block that `ConnectNode` accepts are distinct.
Source: `src/stake/stakenode.cpp` `StakeNode::ConnectNode`
Kind: L -/
theorem revocations_nodup {c c' : StakeNode} {revs : List Uint256} (hwf : c.TreapsWF)
    (h : revs.foldlM revokeTicket c = .ok c') : revs.Nodup := by
  induction revs generalizing c with
  | nil => exact List.nodup_nil
  | cons j revs ih =>
    rw [List.foldlM_cons] at h
    obtain ⟨c₁, hstep, hrest⟩ := except_bind_eq_ok.1 h
    cases hget : c.missedTickets.get j with
    | none =>
      unfold revokeTicket at hstep
      rw [hget] at hstep
      cases hstep
    | some v =>
      rw [revokeTicket_eq hget] at hstep
      have hc₁ := Except.ok.inj hstep
      have hwf₁ : c₁.TreapsWF := by
        rw [← hc₁]; exact ⟨hwf.live, wf_deleteKey hwf.missed j, wf_put hwf.revoked j _⟩
      have hj₁ : c₁.missedTickets.get j = none := by
        rw [← hc₁]
        show (c.missedTickets.deleteKey j).get j = none
        rw [get_deleteKey hwf.missed, if_pos rfl]
      exact List.nodup_cons.2 ⟨not_mem_of_revoked hwf₁ hj₁ hrest, ih hwf₁ hrest⟩

section phases

variable {n : StakeNode} (hinv : n.Inv) {h₀ : UInt32}
include hinv

/-- **The winners loop** replays the winners' moves.
Source: `src/stake/stakenode.cpp` `StakeNode::ConnectNode`
Kind: L -/
theorem winners_phase (ticketsVoted : List Uint256) {c c' : StakeNode} (hc : ConnectInv h₀ c)
    (hslot : c.slot = n.slot) (hrun : n.nextWinners.foldlM (spendOrMissWinner ticketsVoted) c = .ok c') :
    ConnectInv h₀ c' ∧ connectFrame c' = connectFrame c ∧
      Replays n.slot c.databaseUndoUpdate c.ticketCount c' (n.nextWinners.map (winnerMove ticketsVoted)) := by
  have hpre : ∀ k ∈ n.nextWinners, (winnerMove ticketsVoted k).Pre (c.slot (id k)) := by
    intro k hk
    obtain ⟨v, hv⟩ := Option.isSome_iff_exists.1 (hinv.winners_live k hk)
    obtain ⟨hm, hr, -⟩ := (hinv.slot_ok k).of_live (v := v) hv
    rw [hslot]
    unfold winnerMove
    split_ifs <;> exact ⟨by simp [slot, hv], hm, hr⟩
  have h := replays_of_loop (winnerMove ticketsVoted) (winnerMove_key ticketsVoted)
    (stepEdits_spendOrMissWinner h₀ ticketsVoted) (stepCounts_spendOrMissWinner h₀ ticketsVoted)
    (by simpa using hinv.winners_nodup) hpre hc hrun
  rw [hslot] at h
  exact h

/-- After the winners loop, a live ticket is a live ticket of the parent that is not a winner,
and only live.
Source: none: infrastructure
Kind: L -/
theorem live_after_winners {ticketsVoted : List Uint256} {c₀ c : StakeNode}
    (hrep : Replays n.slot c₀.databaseUndoUpdate c₀.ticketCount c
      (n.nextWinners.map (winnerMove ticketsVoted)))
    {k : Uint256} {v : Value} (hk : c.liveTickets.get k = some v) :
    k ∉ n.nextWinners ∧ c.slot k = n.slot k ∧ n.slot k = ⟨some v, none, none⟩ := by
  have hnot : k ∉ (n.nextWinners.map (winnerMove ticketsVoted)).map TicketMove.key := by
    intro hmem
    obtain ⟨m, hm, hmk⟩ := List.mem_map.1 hmem
    obtain ⟨w, -, rfl⟩ := List.mem_map.1 hm
    have hslot := congrFun hrep.slot (winnerMove ticketsVoted w).key
    rw [replay_apply_of_mem _ _ hrep.nodup hm] at hslot
    have hlive := congrArg Slot.live hslot
    simp only [slot, winnerMove_edit_live, hmk] at hlive
    rw [hk] at hlive
    cases hlive
  have hsame : c.slot k = n.slot k := by rw [hrep.slot, replay_apply_of_not_mem _ _ hnot]
  have hlive : (n.slot k).live = some v := by
    rw [← hsame]; exact hk
  obtain ⟨hm, hr, -⟩ := (hinv.slot_ok k).of_live hlive
  refine ⟨fun hw => hnot (by simpa using hw), hsame, ?_⟩
  have hs : n.slot k = ⟨(n.slot k).live, (n.slot k).missed, (n.slot k).revoked⟩ := rfl
  rw [hs, hlive, hm, hr]

/-- **The expiry walk** replays an `expire` move for each ticket it visits.
Source: `src/stake/stakenode.cpp` `StakeNode::ConnectNode`
Kind: L -/
theorem expiry_phase {ticketsVoted : List Uint256} {c₀ c : StakeNode} {xs : List TreapNode}
    (H : UInt32) (hxs : xs = c.liveTickets.root.inorder.filter fun x => decide (x.priority < H))
    (hc : ConnectInv h₀ c)
    (hrep : Replays n.slot c₀.databaseUndoUpdate c₀.ticketCount c
      (n.nextWinners.map (winnerMove ticketsVoted))) :
    ConnectInv h₀ (xs.foldl (fun c x => c.expireTicket x.key x.value) c) ∧
      connectFrame (xs.foldl (fun c x => c.expireTicket x.key x.value) c) = connectFrame c ∧
      Replays c.slot c.databaseUndoUpdate c.ticketCount
        (xs.foldl (fun c x => c.expireTicket x.key x.value) c)
        (xs.map fun x => .expire x.key x.value) := by
  have hmem : ∀ x ∈ xs, x ∈ c.liveTickets.root.inorder := fun x hx => by
    rw [hxs] at hx; exact (List.mem_filter.1 hx).1
  -- every visited ticket is a live non-winner, live only
  have hpre : ∀ x ∈ xs, (TicketMove.expire x.key x.value).Pre (c.slot x.key) := by
    intro x hx
    obtain ⟨-, hsame, hslot⟩ := live_after_winners hinv hrep (get_of_mem hc.wf.live (hmem x hx))
    rw [hsame]; exact hslot
  have hnd : (xs.map TreapNode.key).Nodup := by
    rw [hxs]
    exact (List.Sublist.map TreapNode.key List.filter_sublist).nodup (nodup_keys_inorder hc.wf.live)
  exact replays_of_loop (fun x => TicketMove.expire x.key x.value) (fun _ => rfl)
    (stepEdits_expireTicket h₀) (stepCounts_expireTicket h₀) hnd hpre hc
    (foldlM_ok (fun c x => c.expireTicket x.key x.value) xs c)

/-- **The revocations loop** replays a `revoke` move for each revocation.
Source: `src/stake/stakenode.cpp` `StakeNode::ConnectNode`
Kind: L -/
theorem revocations_phase {revs : List Uint256} {c c' : StakeNode} (hc : ConnectInv h₀ c)
    (hrev : ∀ k ∈ revs, (n.missedTickets.get k).isSome) (hslot : ∀ k ∈ revs, c.slot k = n.slot k)
    (hrun : revs.foldlM revokeTicket c = .ok c') :
    ConnectInv h₀ c' ∧ connectFrame c' = connectFrame c ∧
      Replays c.slot c.databaseUndoUpdate c.ticketCount c' (revs.map .revoke) := by
  have hpre : ∀ k ∈ revs, (TicketMove.revoke k).Pre (c.slot (id k)) := by
    intro k hk
    obtain ⟨v, hv⟩ := Option.isSome_iff_exists.1 (hrev k hk)
    obtain ⟨hl, hr, -⟩ := (hinv.slot_ok k).of_missed (v := v) hv
    rw [id, hslot k hk]
    exact ⟨hl, by simp [slot, hv], hr⟩
  exact replays_of_loop TicketMove.revoke (fun _ => rfl : ∀ k, (TicketMove.revoke k).key = id k)
    (stepEdits_revokeTicket h₀)
    (stepCounts_revokeTicket h₀) (by simpa [TicketMove.key] using revocations_nodup hc.wf hrun) hpre hc hrun

end phases

/-- **The new-tickets loop** replays an `add` move at the node's height for each new ticket.
Source: `src/stake/stakenode.cpp` `StakeNode::ConnectNode`
Kind: L -/
theorem newTickets_phase {h₀ : UInt32} {news : List Uint256} {c : StakeNode} (hc : ConnectInv h₀ c)
    (hnd : news.Nodup) (hfresh : ∀ k ∈ news, c.slot k = ⟨none, none, none⟩) :
    ConnectInv h₀ (news.foldl addTicket c) ∧ connectFrame (news.foldl addTicket c) = connectFrame c ∧
      Replays c.slot c.databaseUndoUpdate c.ticketCount (news.foldl addTicket c)
        (news.map fun k => .add k h₀) :=
  replays_of_loop (fun k => TicketMove.add k h₀) (fun _ => rfl : ∀ k, (TicketMove.add k h₀).key = id k)
    (stepEdits_addTicket h₀)
    (stepCounts_addTicket h₀) (by simpa [TicketMove.key] using hnd) hfresh hc (foldlM_ok addTicket news c)

/-- **The stake block of `ConnectNode`** replays the stake moves, with the expiry walk visiting
exactly the live non-winners of height at most `toExpireHeight`.
Source: `src/stake/stakenode.cpp` `StakeNode::ConnectNode`
Kind: L -/
theorem connectStake_spec {n : StakeNode} (hinv : n.Inv) (p : Params) {h₀ : UInt32}
    {ticketsVoted revs : List Uint256} {c₀ c₁ : StakeNode}
    (hrev : ∀ k ∈ revs, (n.missedTickets.get k).isSome) (hc₀ : ConnectInv h₀ c₀)
    (hslot₀ : c₀.slot = n.slot) (h : c₀.connectStake p n.nextWinners ticketsVoted revs = .ok c₁) :
    ∃ xs : List TreapNode, ConnectInv h₀ c₁ ∧ connectFrame c₁ = connectFrame c₀ ∧
      Replays n.slot c₀.databaseUndoUpdate c₀.ticketCount c₁ (stakeMoves n ticketsVoted revs xs) ∧
      (∀ x ∈ xs, x.value.height < toExpireHeight p h₀ + 1) ∧
      (∀ k v, n.slot k = ⟨some v, none, none⟩ → k ∉ n.nextWinners →
        v.height < toExpireHeight p h₀ + 1 → k ∈ xs.map TreapNode.key) := by
  unfold connectStake at h
  obtain ⟨cW, hW, h'⟩ := except_bind_eq_ok.1 h
  obtain ⟨cE, hE, h'⟩ := except_bind_eq_ok.1 h'
  obtain ⟨hcW, hfW, hrepW⟩ := winners_phase hinv ticketsVoted hc₀ hslot₀ hW
  -- the expiry walk returned, so it folded over the live tickets below the bound
  rw [hcW.height] at hE
  have hcE := forEachByHeight_continue_eq_foldl hcW.wf.live.tree.heap _
    (fun k v (c : StakeNode) => c.expireTicket k v) hE
  obtain ⟨xs, hxs⟩ : ∃ xs, xs = cW.liveTickets.root.inorder.filter
      fun x => decide (x.priority < toExpireHeight p h₀ + 1) := ⟨_, rfl⟩
  rw [← hxs] at hcE
  subst hcE
  obtain ⟨hcE, hfE, hrepE⟩ := expiry_phase hinv (toExpireHeight p h₀ + 1) hxs hcW hrepW
  have hmem : ∀ x ∈ xs, x ∈ cW.liveTickets.root.inorder ∧ x.priority < toExpireHeight p h₀ + 1 :=
    fun x hx => by rw [hxs] at hx; simpa using hx
  have hexp : ∀ x ∈ xs, x.key ∉ n.nextWinners ∧ n.slot x.key = ⟨some x.value, none, none⟩ :=
    fun x hx => by
      obtain ⟨hw, -, hslot⟩ := live_after_winners hinv hrepW (get_of_mem hcW.wf.live (hmem x hx).1)
      exact ⟨hw, hslot⟩
  have hWkeys : (n.nextWinners.map (winnerMove ticketsVoted)).map TicketMove.key = n.nextWinners := by
    simp [List.map_map, Function.comp_def]
  have hEkeys : (xs.map fun x => TicketMove.expire x.key x.value).map TicketMove.key =
      xs.map TreapNode.key := by
    simp [List.map_map, Function.comp_def, TicketMove.key]
  -- a revoked ticket is missed, so neither a winner nor visited by the walk
  have hrevfresh : ∀ k ∈ revs, k ∉ n.nextWinners ∧ k ∉ xs.map TreapNode.key := by
    intro k hk
    obtain ⟨v, hv⟩ := Option.isSome_iff_exists.1 (hrev k hk)
    obtain ⟨hl, -⟩ := (hinv.slot_ok k).of_missed (v := v) hv
    refine ⟨fun hw => ?_, fun hkx => ?_⟩
    · obtain ⟨w, hw'⟩ := Option.isSome_iff_exists.1 (hinv.winners_live k hw)
      simp [slot, hw'] at hl
    · obtain ⟨x, hx, rfl⟩ := List.mem_map.1 hkx
      have := congrArg Slot.missed (hexp x hx).2
      simp [slot, hv] at this
  have hslotR : ∀ k ∈ revs, (xs.foldl (fun c x => c.expireTicket x.key x.value) cW).slot k = n.slot k := by
    intro k hk
    rw [hrepE.slot, hrepW.slot, replay_apply_of_not_mem, replay_apply_of_not_mem]
    · rw [hWkeys]; exact (hrevfresh k hk).1
    · rw [hEkeys]; exact (hrevfresh k hk).2
  obtain ⟨hcR, hfR, hrepR⟩ := revocations_phase hinv hcE hrev hslotR h'
  refine ⟨xs, hcR, hfR.trans (hfE.trans hfW), ?_, fun x hx => ?_, fun k v hk hw hv => ?_⟩
  · refine (hrepW.append hrepE fun m hm => ?_).append hrepR fun m hm => ?_
    · obtain ⟨x, hx, rfl⟩ := List.mem_map.1 hm
      rw [hWkeys]; exact (hexp x hx).1
    · obtain ⟨k, hk, rfl⟩ := List.mem_map.1 hm
      rw [List.map_append, hWkeys, hEkeys, List.mem_append, not_or]
      exact hrevfresh k hk
  · -- the walk's bound on priorities is a bound on heights
    rw [← hcW.prio x (hmem x hx).1]
    exact (hmem x hx).2
  · -- a live non-winner of low height is a node of the walked tree below the bound
    have hget : cW.liveTickets.get k = some v := by
      have hnot : k ∉ (n.nextWinners.map (winnerMove ticketsVoted)).map TicketMove.key := by
        rw [hWkeys]; exact hw
      have := congrArg Slot.live (congrFun hrepW.slot k)
      rw [replay_apply_of_not_mem _ _ hnot, hk] at this
      exact this
    obtain ⟨x, hx, rfl, rfl⟩ := exists_mem_of_get hcW.wf.live hget
    refine List.mem_map.2 ⟨x, ?_, rfl⟩
    rw [hxs, List.mem_filter]
    exact ⟨hx, by rw [hcW.prio x hx]; simpa using hv⟩


/-- A move of the stake block finds its ticket in some treap.
Source: none: infrastructure
Kind: L -/
theorem ne_empty_of_pre_stakeMoves {n : StakeNode} {ticketsVoted revs : List Uint256}
    {xs : List TreapNode} {m : TicketMove} (hm : m ∈ stakeMoves n ticketsVoted revs xs) {s : Slot}
    (h : m.Pre s) : s ≠ ⟨none, none, none⟩ := by
  rintro rfl
  simp only [stakeMoves, List.mem_append, List.mem_map] at hm
  rcases hm with (⟨w, -, rfl⟩ | ⟨x, -, rfl⟩) | ⟨k, -, rfl⟩
  · unfold winnerMove at h
    split_ifs at h <;> simp [TicketMove.Pre] at h
  · simp [TicketMove.Pre] at h
  · simp [TicketMove.Pre] at h

/-! ## The lottery -/

/-- What the lottery left in a node: enough live tickets, the winners at the ranks the
generator drew from the lottery IV, and the checksum over them and the generator's state.
Source: `src/stake/stakenode.cpp` `StakeNode::ConnectNode`
Kind: D -/
structure LotteryDraw (p : Params) (cr : Crypto) (fuel : Nat) (lotteryIV : Uint256)
    (c : StakeNode) : Prop where
  /-- The pool holds at least `nTicketsPerBlock` tickets. -/
  enough : p.nTicketsPerBlock.toNat ≤ c.liveTickets.len
  /-- The winners and the checksum come from the draw. -/
  draw : ∃ idxs prng, (Hash256PRNG.init lotteryIV).findTicketIdxs cr fuel
      (UInt32.ofNat c.liveTickets.len) p.nTicketsPerBlock.toUInt32 = .ok (idxs, prng) ∧
    c.nextWinners = idxs.filterMap (fun i => (SortedKV.keys (entries c.liveTickets.root))[i.toNat]?) ∧
    c.finalState = lotteryState cr c.nextWinners prng

/-- **The lottery** sets only the winners and the checksum.
Source: `src/stake/stakenode.cpp` `StakeNode::ConnectNode`
Kind: L -/
theorem drawWinners_spec {p : Params} {cr : Crypto} {fuel : Nat} {lotteryIV : Uint256}
    {c c' : StakeNode} (hwf : c.liveTickets.WF)
    (h : c.drawWinners p cr fuel lotteryIV = .ok (some c')) :
    c'.height = c.height ∧ c'.liveTickets = c.liveTickets ∧ c'.missedTickets = c.missedTickets ∧
      c'.revokedTickets = c.revokedTickets ∧ c'.databaseUndoUpdate = c.databaseUndoUpdate ∧
      c'.databaseBlockTickets = c.databaseBlockTickets ∧ LotteryDraw p cr fuel lotteryIV c' := by
  unfold drawWinners at h
  split_ifs at h with hlen
  · cases h
  obtain ⟨⟨idxs, prng⟩, hdraw, h'⟩ := except_bind_eq_ok.1 h
  obtain ⟨keys, hfetch, h''⟩ := except_bind_eq_ok.1 h'
  cases h''
  -- an empty pool would have thrown in `fetchWinners`
  have hpos : 0 < c.liveTickets.len := by
    rcases Nat.eq_zero_or_pos c.liveTickets.len with h0 | h0
    · simp [fetchWinners, h0] at hfetch
    · exact h0
  obtain ⟨-, hlt, -⟩ := Hash256PRNG.findTicketIdxs_spec cr hdraw
  have hidx : ∀ i ∈ idxs, i.toNat < c.liveTickets.len := fun i hi => by
    have := UInt32.lt_iff_toNat_lt.1 (hlt i hi)
    rw [UInt32.toNat_ofNat'] at this
    exact lt_of_lt_of_le this (Nat.mod_le _ _)
  rw [fetchWinners_eq hwf hpos hidx] at hfetch
  cases hfetch
  exact ⟨rfl, rfl, rfl, rfl, rfl, rfl, ⟨Nat.le_of_not_lt hlen, idxs, prng, hdraw, rfl, rfl⟩⟩

/-- The winners the lottery draws are distinct live tickets, `nTicketsPerBlock` of them.
Source: `src/stake/stakenode.cpp` `StakeNode::ConnectNode`,
`src/stake/hash256prng.cpp` `Hash256PRNG::FindTicketIdxs`
Kind: L -/
theorem LotteryDraw.winners {p : Params} {cr : Crypto} {fuel : Nat} {lotteryIV : Uint256}
    {c : StakeNode} (h : LotteryDraw p cr fuel lotteryIV c) (hwf : c.liveTickets.WF) :
    c.nextWinners.Nodup ∧ (∀ w ∈ c.nextWinners, (c.liveTickets.get w).isSome) ∧
      c.nextWinners.length = p.nTicketsPerBlock.toNat := by
  obtain ⟨-, idxs, prng, hdraw, hwin, -⟩ := h
  obtain ⟨hnd, hlt, hlen⟩ := Hash256PRNG.findTicketIdxs_spec cr hdraw
  have hkeys : (SortedKV.keys (entries c.liveTickets.root)).length = c.liveTickets.len := by
    rw [SortedKV.keys, List.length_map, len_eq_length_entries hwf]
  have hidx : ∀ i ∈ idxs, i.toNat < (SortedKV.keys (entries c.liveTickets.root)).length :=
    fun i hi => by
      have := UInt32.lt_iff_toNat_lt.1 (hlt i hi)
      rw [UInt32.toNat_ofNat'] at this
      rw [hkeys]
      exact lt_of_lt_of_le this (Nat.mod_le _ _)
  have hsorted := keySorted_iff_sorted.1 hwf.tree.sorted
  rw [hwin]
  refine ⟨?_, fun w hw => ?_, ?_⟩
  · -- distinct ranks of distinct keys
    refine List.Nodup.filterMap (fun i j w hi hj => ?_) hnd
    obtain ⟨hib, hie⟩ := List.getElem?_eq_some_iff.1 (Option.mem_def.1 hi)
    obtain ⟨hjb, hje⟩ := List.getElem?_eq_some_iff.1 (Option.mem_def.1 hj)
    have := (List.Nodup.getElem_inj_iff (SortedKV.nodup_keys hsorted)).1 (hie.trans hje.symm)
    exact UInt32.toNat_inj.1 this
  · obtain ⟨i, -, hi⟩ := List.mem_filterMap.1 hw
    have hmem := List.mem_of_getElem? hi
    obtain ⟨e, he, rfl⟩ := List.mem_map.1 hmem
    obtain ⟨x, hx, rfl⟩ := mem_entries.1 he
    simp [TreapNode.entry, get_of_mem hwf hx]
  · rw [List.length_filterMap_eq_countP, List.countP_eq_length.2 fun i hi => by simpa using hidx i hi,
      hlen]
    simp

/-! ## The whole of `ConnectNode` -/

/-- Everything a successful `ConnectNode` did, given the list of tickets its expiry walk
visited.
Source: `src/stake/stakenode.cpp` `StakeNode::ConnectNode`
Kind: D -/
structure ConnectOutcome (p : Params) (cr : Crypto) (fuel : Nat) (n : StakeNode)
    (lotteryIV : Uint256) (ticketsVoted revokedTickets newTickets : List Uint256)
    (expired : List TreapNode) (c : StakeNode) : Prop where
  /-- The child is one block higher. -/
  height : c.height = n.height + 1
  /-- The child records the new tickets. -/
  blockTickets : c.databaseBlockTickets = newTickets
  /-- The child's treaps are well formed. -/
  wf : c.TreapsWF
  /-- The child's live priorities are heights. -/
  prio : c.liveTickets.PrioIsHeight
  /-- The child is the replay of the block's moves. -/
  replays : Replays n.slot [] n.ticketCount c
    (connectMoves p n ticketsVoted revokedTickets newTickets expired)
  /-- The walk visited tickets of height at most `toExpireHeight`. -/
  expired_low : ∀ x ∈ expired, x.value.height < toExpireHeight p (n.height + 1) + 1
  /-- The walk visited every live non-winner of height at most `toExpireHeight`. -/
  expired_all : stakeEnabled p (n.height + 1) = true → ∀ k v, n.slot k = ⟨some v, none, none⟩ →
    k ∉ n.nextWinners → v.height < toExpireHeight p (n.height + 1) + 1 →
    k ∈ expired.map TreapNode.key
  /-- From the lottery height on, the winners are drawn. -/
  drawn : lotteryDue p (n.height + 1) = true → LotteryDraw p cr fuel lotteryIV c
  /-- Below it, there are none. -/
  undrawn : lotteryDue p (n.height + 1) = false → c.nextWinners = [] ∧ c.finalState = Uint48.zero

/-- **The inversion lemma of `ConnectNode`.**
Source: `src/stake/stakenode.cpp` `StakeNode::ConnectNode`
Kind: L -/
theorem connectNode_spec {p : Params} {cr : Crypto} {fuel : Nat} {n : StakeNode} (hinv : n.Inv)
    {lotteryIV : Uint256} {ticketsVoted revs news : List Uint256} (hpre : n.ConnectPre revs news)
    {c : StakeNode} (h : connectNode p cr fuel n lotteryIV ticketsVoted revs news = .ok (some c)) :
    ∃ expired, ConnectOutcome p cr fuel n lotteryIV ticketsVoted revs news expired c := by
  unfold connectNode at h
  dsimp only at h
  -- the child before any move: the parent's treaps at the next height
  have hc₀ : ConnectInv (n.height + 1)
      ⟨n.height + 1, n.liveTickets, n.missedTickets, n.revokedTickets, [], news, [], Uint48.zero⟩ :=
    ⟨⟨hinv.wf.live, hinv.wf.missed, hinv.wf.revoked⟩, hinv.prio, rfl⟩
  -- the stake block, or nothing below `nStakeEnabledHeight`
  obtain ⟨c₁, xs, hc₁, hf₁, hrep₁, hlow, hall, h₂⟩ : ∃ (c₁ : StakeNode) (xs : List TreapNode),
      ConnectInv (n.height + 1) c₁ ∧ connectFrame c₁ = ([], news, Uint48.zero) ∧
      Replays n.slot [] n.ticketCount c₁
        (if stakeEnabled p (n.height + 1) then stakeMoves n ticketsVoted revs xs else []) ∧
      (∀ x ∈ xs, x.value.height < toExpireHeight p (n.height + 1) + 1) ∧
      (stakeEnabled p (n.height + 1) = true → ∀ k v, n.slot k = ⟨some v, none, none⟩ →
        k ∉ n.nextWinners → v.height < toExpireHeight p (n.height + 1) + 1 →
        k ∈ xs.map TreapNode.key) ∧
      (if lotteryDue p (news.foldl addTicket c₁).height = true then
        (news.foldl addTicket c₁).drawWinners p cr fuel lotteryIV
      else .ok (some (news.foldl addTicket c₁))) = .ok (some c) := by
    split at h
    · rename_i hen
      obtain ⟨c₁, h₁, h₂⟩ := except_bind_eq_ok.1 h
      obtain ⟨xs, hc₁, hf₁, hrep, hlow, hall⟩ :=
        connectStake_spec hinv p hpre.revoked_missed hc₀ rfl h₁
      exact ⟨c₁, xs, hc₁, hf₁, by rw [if_pos hen]; exact hrep, hlow, fun _ => hall, h₂⟩
    · rename_i hen
      obtain ⟨c₁, h₁, h₂⟩ := except_bind_eq_ok.1 h
      cases h₁
      exact ⟨_, [], hc₀, rfl, by
        rw [if_neg hen]
        exact Replays.nil
          ⟨n.height + 1, n.liveTickets, n.missedTickets, n.revokedTickets, [], news, [], Uint48.zero⟩,
        by simp,
        fun h => absurd h hen, h₂⟩
  -- a new ticket is in no treap, so no move of the stake block is about it
  have hnew : ∀ k ∈ news, k ∉
      (if stakeEnabled p (n.height + 1) then stakeMoves n ticketsVoted revs xs else []).map
        TicketMove.key := by
    intro k hk hmem
    obtain ⟨m, hm, rfl⟩ := List.mem_map.1 hmem
    split_ifs at hm with hen
    · exact ne_empty_of_pre_stakeMoves hm (hrep₁.pre m (by rw [if_pos hen]; exact hm))
        (hpre.new_fresh _ hk)
    · simp at hm
  have hfresh : ∀ k ∈ news, c₁.slot (id k) = ⟨none, none, none⟩ := fun k hk => by
    rw [id, hrep₁.slot, replay_apply_of_not_mem _ _ (hnew k hk)]
    exact hpre.new_fresh k hk
  obtain ⟨hc₂, hf₂, hrep₂⟩ := newTickets_phase hc₁ hpre.new_nodup hfresh
  have hrep := hrep₁.append hrep₂ fun m hm => by
    obtain ⟨k, hk, rfl⟩ := List.mem_map.1 hm
    exact hnew k hk
  have hframe : connectFrame (news.foldl addTicket c₁) = ([], news, Uint48.zero) := hf₂.trans hf₁
  simp only [connectFrame, Prod.mk.injEq] at hframe
  obtain ⟨hw₂, hb₂, hs₂⟩ := hframe
  rw [hc₂.height] at h₂
  refine ⟨xs, ?_⟩
  by_cases hdue : lotteryDue p (n.height + 1) = true
  · rw [if_pos hdue] at h₂
    obtain ⟨hh, hl, hm, hr, hu, hb, hdraw⟩ := drawWinners_spec hc₂.wf.live h₂
    have hslot : c.slot = (news.foldl addTicket c₁).slot := by
      funext k; simp only [slot, hl, hm, hr]
    have hcount : c.ticketCount = (news.foldl addTicket c₁).ticketCount := by
      simp only [ticketCount, hl, hm, hr]
    refine ⟨by rw [hh, hc₂.height], by rw [hb, hb₂], ⟨by rw [hl]; exact hc₂.wf.live,
      by rw [hm]; exact hc₂.wf.missed, by rw [hr]; exact hc₂.wf.revoked⟩,
      by rw [hl]; exact hc₂.prio, ⟨hrep.nodup, hrep.pre, by rw [hslot]; exact hrep.slot,
      by rw [hu]; exact hrep.undo, by rw [hcount]; exact hrep.count⟩, hlow, hall,
      fun _ => hdraw, fun h => absurd hdue (by simp [h])⟩
  · rw [if_neg hdue] at h₂
    cases h₂
    exact ⟨hc₂.height, hb₂, hc₂.wf, hc₂.prio, hrep, hlow, hall, fun h => absurd h hdue,
      fun _ => ⟨hw₂, hs₂⟩⟩

end StakeNode

end BwsCoin.Stake
