import BwsCoin.Stake.ConnectSpec

/-!
# The ticket database over whole runs

A stake node is `Reachable` when a chain of `ConnectNode` calls from `genesisNode` produces it,
each on a block that revokes only missed tickets and adds distinct tickets that no treap holds
(`ConnectPre`). This module proves what holds of every such node.

* `Reachable.inv` — every block keeps the invariant `Inv` that `connectNode_spec` needs
  (`connectNode_inv`): each move keeps its slot consistent (`TicketMove.edit_ok`) and the
  lottery draws distinct live winners.
* `ticketDb_invariant` — **the ticket database invariant**: the three treaps hold disjoint
  tickets, each with the flags of its treap; once stake is enabled every live ticket is younger
  than `nTicketExpiry`; the winners are distinct live tickets, `nTicketsPerBlock` of them from
  the lottery height on; and each block changes the ticket count by its new tickets less the
  winners that voted.
* `ticketDb_invariant_of_fetched` — the expiry walk runs only from `nStakeEnabledHeight` on,
  and `MaybeFetchNewTickets` gives the blocks below it no new tickets. So on the nodes
  `FetchStakeNode` builds (`Fetched`) every live ticket was bought where stake is enabled, and is
  younger than `nTicketExpiry` at every height (`Fetched.live_young`).

The age bound needs `1 ≤ nTicketExpiry` (a ticket bought in a block is live in it), which the
three shipped parameter sets satisfy.
-/

namespace BwsCoin.Stake

open BinaryTree TicketTreap KeyedReplay Consensus

/-! ## Moves keep slots consistent -/

namespace TicketMove

variable {m : TicketMove} {s : Slot}

/-- **A move keeps a slot consistent**: it takes the ticket from the treap it expects it in,
with that treap's flags, to the next one with the next flags.
Source: `src/stake/stakenode.cpp` `StakeNode::ConnectNode`
Kind: L -/
theorem edit_ok (hpre : m.Pre s) (hs : s.OK) : (m.edit s).OK := by
  obtain ⟨l, mi, r⟩ := s
  cases m with
  | vote k =>
    obtain ⟨-, hm, hr⟩ := hpre
    simp only at hm hr
    subst hm hr
    simp [edit, Slot.OK]
  | miss k =>
    obtain ⟨hl, hm, hr⟩ := hpre
    simp only at hl hm hr
    subst hm hr
    obtain ⟨v, rfl⟩ := Option.isSome_iff_exists.1 hl
    obtain ⟨-, -, -, hvr, -⟩ := hs.of_live (v := v) rfl
    simp [edit, Slot.OK, StakeNode.winnerValue, hvr]
  | expire k v =>
    simp only [Pre, Slot.mk.injEq] at hpre
    obtain ⟨rfl, rfl, rfl⟩ := hpre
    obtain ⟨-, -, -, hvr, hvs, -⟩ := hs.of_live (v := v) rfl
    simp [edit, Slot.OK, StakeNode.expiredValue, hvr, hvs]
  | revoke k =>
    obtain ⟨hl, hm, hr⟩ := hpre
    simp only at hl hm hr
    subst hl hr
    obtain ⟨v, rfl⟩ := Option.isSome_iff_exists.1 hm
    obtain ⟨-, -, hvm, -⟩ := hs.of_missed (v := v) rfl
    simp [edit, Slot.OK, hvm]
  | add k h =>
    simp only [Pre, Slot.mk.injEq] at hpre
    obtain ⟨rfl, rfl, rfl⟩ := hpre
    simp [edit, Slot.OK]

/-- Only a new ticket is live after its move, and it is live at the move's height.
Source: `src/stake/stakenode.cpp` `StakeNode::ConnectNode`
Kind: L -/
theorem eq_add_of_edit_live (hpre : m.Pre s) {v : Value} (h : (m.edit s).live = some v) :
    m = .add m.key v.height := by
  cases m with
  | vote k => simp [edit] at h
  | miss k => simp [edit] at h
  | expire k w => simp [edit] at h
  | revoke k =>
    obtain ⟨hl, -⟩ := hpre
    simp only [edit] at h
    rw [hl] at h
    cases h
  | add k t =>
    simp only [edit, Option.some.injEq] at h
    rw [← h]
    rfl

end TicketMove

namespace StakeNode

/-- The slots a replay reaches from consistent slots are consistent.
Source: none: infrastructure
Kind: L -/
theorem Replays.slot_ok {s₀ : Uint256 → Slot} {u₀ : List UndoTicketData} {k₀ : Nat}
    {c : StakeNode} {ms : List TicketMove} (h : Replays s₀ u₀ k₀ c ms) (hs : ∀ k, (s₀ k).OK) :
    ∀ k, (c.slot k).OK := by
  intro k
  rw [h.slot]
  by_cases hk : k ∈ ms.map TicketMove.key
  · obtain ⟨m, hm, rfl⟩ := List.mem_map.1 hk
    rw [replay_apply_of_mem _ _ h.nodup hm]
    exact TicketMove.edit_ok (h.pre m hm) (hs m.key)
  · rw [replay_apply_of_not_mem _ _ hk]
    exact hs k

variable {p : Params} {cr : Crypto} {fuel : Nat}

/-- **A block keeps the invariant.**
Source: `src/stake/stakenode.cpp` `StakeNode::ConnectNode`
Kind: L -/
theorem connectNode_inv {n : StakeNode} (hinv : n.Inv) {lotteryIV : Uint256}
    {ticketsVoted revs news : List Uint256} (hpre : n.ConnectPre revs news) {c : StakeNode}
    (h : connectNode p cr fuel n lotteryIV ticketsVoted revs news = .ok (some c)) : c.Inv := by
  obtain ⟨expired, hout⟩ := connectNode_spec hinv hpre h
  -- the winners are the lottery's, or there are none yet
  have hwin : c.nextWinners.Nodup ∧ ∀ w ∈ c.nextWinners, (c.liveTickets.get w).isSome := by
    by_cases hdue : lotteryDue p (n.height + 1) = true
    · obtain ⟨hnd, hlive, -⟩ := (hout.drawn hdue).winners hout.wf.live
      exact ⟨hnd, hlive⟩
    · rw [(hout.undrawn (Bool.eq_false_iff.2 hdue)).1]
      exact ⟨List.nodup_nil, by simp⟩
  exact ⟨hout.wf, hout.prio, hout.replays.slot_ok hinv.slot_ok, hwin.1, hwin.2⟩

/-! ## Reachable nodes -/

/-- The nodes a chain of `ConnectNode` calls from `genesisNode` reaches, on blocks that revoke
only missed tickets and add distinct tickets that no treap holds.
Source: `src/validation.cpp` `FetchStakeNode`, `src/stake/stakenode.cpp`
`StakeNode::ConnectNode`
Kind: D -/
inductive Reachable (p : Params) (cr : Crypto) (fuel : Nat) : StakeNode → Prop where
  /-- The genesis node. -/
  | genesis : Reachable p cr fuel genesisNode
  /-- The child of a reachable node on an accepted block. -/
  | connect {n c : StakeNode} (lotteryIV : Uint256) (ticketsVoted revokedTickets newTickets : List Uint256) :
      Reachable p cr fuel n → n.ConnectPre revokedTickets newTickets →
      connectNode p cr fuel n lotteryIV ticketsVoted revokedTickets newTickets = .ok (some c) →
      Reachable p cr fuel c

/-- Source: `src/stake/stakenode.cpp` `StakeNode::genesisNode`. Kind: L -/
theorem genesisNode_slot (k : Uint256) : genesisNode.slot k = ⟨none, none, none⟩ := rfl

/-- Source: `src/stake/stakenode.cpp` `StakeNode::genesisNode`. Kind: L -/
theorem genesisNode_liveTickets_get (k : Uint256) : genesisNode.liveTickets.get k = none := rfl

/-- Source: `src/stake/stakenode.cpp` `StakeNode::genesisNode`. Kind: L -/
theorem genesisNode_inv : genesisNode.Inv where
  wf := ⟨WF.empty, WF.empty, WF.empty⟩
  prio := PrioIsHeight.empty
  slot_ok k := by rw [genesisNode_slot]; trivial
  winners_nodup := List.nodup_nil
  winners_live w hw := absurd hw List.not_mem_nil

/-- **Every reachable node satisfies the invariant.**
Source: `src/stake/stakenode.cpp` `StakeNode::ConnectNode`
Kind: L -/
theorem Reachable.inv {n : StakeNode} (h : Reachable p cr fuel n) : n.Inv := by
  induction h with
  | genesis => exact genesisNode_inv
  | connect _ _ _ _ _ hpre hc ih => exact connectNode_inv ih hpre hc

/-- A reachable node is the genesis node or the outcome of a block on a node that satisfies the
invariant.
Source: none: infrastructure
Kind: L -/
theorem Reachable.last {c : StakeNode} (h : Reachable p cr fuel c) :
    c = genesisNode ∨ ∃ n lotteryIV ticketsVoted revs news expired, n.Inv ∧
      ConnectOutcome p cr fuel n lotteryIV ticketsVoted revs news expired c := by
  cases h with
  | genesis => exact .inl rfl
  | connect lotteryIV ticketsVoted revs news hn hpre hc =>
    obtain ⟨expired, hout⟩ := connectNode_spec hn.inv hpre hc
    exact .inr ⟨_, lotteryIV, ticketsVoted, revs, news, expired, hn.inv, hout⟩

/-- The nodes `FetchStakeNode` builds: those of `Reachable` whose blocks buy no ticket below
`nStakeEnabledHeight`, as `MaybeFetchNewTickets` gives a block there no new tickets.
Source: `src/validation.cpp` `FetchStakeNode`, `MaybeFetchNewTickets`;
`src/stake/stakenode.cpp` `StakeNode::ConnectNode`
Kind: D -/
inductive Fetched (p : Params) (cr : Crypto) (fuel : Nat) : StakeNode → Prop where
  /-- The genesis node. -/
  | genesis : Fetched p cr fuel genesisNode
  /-- The child of a fetched node on an accepted block. -/
  | connect {n c : StakeNode} (lotteryIV : Uint256)
      (ticketsVoted revokedTickets newTickets : List Uint256) :
      Fetched p cr fuel n → n.ConnectPre revokedTickets newTickets →
      (stakeEnabled p (n.height + 1) = false → newTickets = []) →
      connectNode p cr fuel n lotteryIV ticketsVoted revokedTickets newTickets = .ok (some c) →
      Fetched p cr fuel c

/-- Source: `src/validation.cpp` `FetchStakeNode`. Kind: L -/
theorem Fetched.reachable {n : StakeNode} (h : Fetched p cr fuel n) : Reachable p cr fuel n := by
  induction h with
  | genesis => exact .genesis
  | connect lotteryIV ticketsVoted revs news _ hpre _ hc ih =>
    exact .connect lotteryIV ticketsVoted revs news ih hpre hc

/-! ## The age of live tickets -/

/-- A ticket that the expiry walk at height `H` leaves alone is younger than `nTicketExpiry`.
Source: `src/stake/stakenode.cpp` `StakeNode::ConnectNode` (`toExpireHeight`)
Kind: L -/
theorem lt_add_expiry_of_not_expired {H h : UInt32} (hexp : 1 ≤ p.nTicketExpiry.toNat)
    (hkeep : ¬ h < toExpireHeight p H + 1) : H.toNat < h.toNat + p.nTicketExpiry.toNat := by
  unfold toExpireHeight at hkeep
  split_ifs at hkeep with hgt
  · -- above the expiry the walk's bound is `H - nTicketExpiry + 1`, with no wrap
    have hgt' := UInt32.lt_iff_toNat_lt.1 hgt
    have hsub : (H - p.nTicketExpiry).toNat = H.toNat - p.nTicketExpiry.toNat := by
      rw [UInt32.toNat_sub]
      have := H.toNat_lt
      omega
    have hadd : (H - p.nTicketExpiry + 1).toNat = H.toNat - p.nTicketExpiry.toNat + 1 := by
      rw [UInt32.toNat_add, hsub, UInt32.toNat_one]
      have := H.toNat_lt
      omega
    rw [UInt32.lt_iff_toNat_lt, hadd] at hkeep
    omega
  · have hle := mt UInt32.lt_iff_toNat_lt.2 hgt
    rw [UInt32.lt_iff_toNat_lt] at hkeep
    simp only [UInt32.zero_add, UInt32.toNat_one] at hkeep
    omega

/-- A height where stake is not enabled is below one where it is.
Source: `src/stake/stakenode.cpp` `StakeNode::ConnectNode`
Kind: L -/
theorem toNat_lt_of_stakeEnabled {a b : UInt32} (ha : stakeEnabled p a = false)
    (hb : stakeEnabled p b = true) : a.toNat < b.toNat := by
  unfold stakeEnabled at ha hb
  rw [decide_eq_false_iff_not, ge_iff_le, UInt32.le_iff_toNat_le] at ha
  rw [decide_eq_true_iff, ge_iff_le, UInt32.le_iff_toNat_le] at hb
  omega

section outcome

variable {n : StakeNode} (hinv : n.Inv) {lotteryIV : Uint256}
  {ticketsVoted revs news : List Uint256} {expired : List TreapNode} {c : StakeNode}
  (hout : ConnectOutcome p cr fuel n lotteryIV ticketsVoted revs news expired c)
include hinv hout

/-- A live ticket of a connected node is new, at the child's height, or was live in the parent
and, when stake is enabled, was neither a winner nor old enough for the expiry walk.
Source: `src/stake/stakenode.cpp` `StakeNode::ConnectNode`
Kind: L -/
theorem live_of_connect {k : Uint256} {v : Value} (hk : c.liveTickets.get k = some v) :
    (k ∈ news ∧ v.height = n.height + 1) ∨
      (n.liveTickets.get k = some v ∧
        (stakeEnabled p (n.height + 1) = true → ¬ v.height < toExpireHeight p (n.height + 1) + 1)) := by
  have hslot := congrFun hout.replays.slot k
  by_cases hmem : k ∈ (connectMoves p n ticketsVoted revs news expired).map TicketMove.key
  · -- a moved ticket that is live is a new one
    left
    obtain ⟨m, hm, rfl⟩ := List.mem_map.1 hmem
    rw [replay_apply_of_mem _ _ hout.replays.nodup hm] at hslot
    have hlive : (m.edit (n.slot m.key)).live = some v := by
      rw [← hslot]
      exact hk
    have hadd := TicketMove.eq_add_of_edit_live (hout.replays.pre m hm) hlive
    simp only [connectMoves, List.mem_append, List.mem_map] at hm
    rcases hm with hm | ⟨j, hjmem, hj⟩
    · -- the stake block has no `add` move
      split_ifs at hm
      · rw [hadd] at hm
        simp only [stakeMoves, List.mem_append, List.mem_map] at hm
        rcases hm with (⟨w, -, hw⟩ | ⟨x, -, hx⟩) | ⟨j, -, hj⟩
        · unfold winnerMove at hw
          split_ifs at hw
        · cases hx
        · cases hj
      · simp at hm
    · rw [hadd] at hj
      simp only [TicketMove.add.injEq] at hj
      exact ⟨hj.1 ▸ hjmem, hj.2.symm⟩
  · right
    rw [replay_apply_of_not_mem _ _ hmem] at hslot
    have hn : n.liveTickets.get k = some v := by
      have := congrArg Slot.live hslot
      simp only [slot] at this
      rw [← this]
      exact hk
    refine ⟨hn, fun hen hlow => hmem ?_⟩
    -- an old ticket below the bound is a winner or visited by the walk, so it has a move
    obtain ⟨hm, hr, -⟩ := (hinv.slot_ok k).of_live (v := v) hn
    have hs : n.slot k = ⟨some v, none, none⟩ := by
      have hs : n.slot k = ⟨(n.slot k).live, (n.slot k).missed, (n.slot k).revoked⟩ := rfl
      have hl : (n.slot k).live = some v := hn
      rw [hs, hl, hm, hr]
    simp only [connectMoves, hen, if_true, stakeMoves, List.map_append, List.mem_append,
      List.map_map]
    by_cases hw : k ∈ n.nextWinners
    · left; left; left
      exact List.mem_map.2 ⟨k, hw, by simp⟩
    · left; left; right
      have := hout.expired_all hen k v hs hw hlow
      simpa [Function.comp_def, TicketMove.key] using this

/-- **Once stake is enabled, every live ticket of a connected node is younger than
`nTicketExpiry`.**
Source: `src/stake/stakenode.cpp` `StakeNode::ConnectNode`
Kind: L -/
theorem live_young_of_connect (hexp : 1 ≤ p.nTicketExpiry.toNat)
    (hen : stakeEnabled p c.height = true) {k : Uint256} {v : Value}
    (hk : c.liveTickets.get k = some v) :
    c.height.toNat < v.height.toNat + p.nTicketExpiry.toNat := by
  rcases live_of_connect hinv hout hk with ⟨-, hnew⟩ | ⟨-, hold⟩
  · rw [hout.height, ← hnew]
    omega
  · rw [hout.height] at hen ⊢
    exact lt_add_expiry_of_not_expired hexp (hold hen)

/-- A block that adds tickets only where stake is enabled keeps every live ticket bought where
stake is enabled, and then younger than `nTicketExpiry` at any height: below
`nStakeEnabledHeight` the node is lower than the ticket.
Source: `src/stake/stakenode.cpp` `StakeNode::ConnectNode`, `src/validation.cpp`
`MaybeFetchNewTickets`
Kind: L -/
theorem live_enabled_young_of_connect (hexp : 1 ≤ p.nTicketExpiry.toNat)
    (hfetch : stakeEnabled p (n.height + 1) = false → news = [])
    (hold : ∀ k v, n.liveTickets.get k = some v → stakeEnabled p v.height = true)
    {k : Uint256} {v : Value} (hk : c.liveTickets.get k = some v) :
    stakeEnabled p v.height = true ∧ c.height.toNat < v.height.toNat + p.nTicketExpiry.toNat := by
  rcases live_of_connect hinv hout hk with ⟨hnews, hnew⟩ | ⟨hn, -⟩
  · -- a new ticket: the block buys tickets, so stake is enabled at its height
    have hen : stakeEnabled p (n.height + 1) = true := by
      by_contra hne
      rw [hfetch (Bool.eq_false_iff.mpr hne)] at hnews
      exact List.not_mem_nil hnews
    refine ⟨by rw [hnew]; exact hen, ?_⟩
    rw [hout.height, ← hnew]
    omega
  · have hen := hold k v hn
    refine ⟨hen, ?_⟩
    by_cases hc : stakeEnabled p c.height = true
    · exact live_young_of_connect hinv hout hexp hc hk
    · have hlt := toNat_lt_of_stakeEnabled (Bool.eq_false_iff.mpr hc) hen
      omega

end outcome

/-- **On a fetched node every live ticket was bought where stake is enabled, and is younger than
`nTicketExpiry`.**
Source: `src/stake/stakenode.cpp` `StakeNode::ConnectNode`, `src/validation.cpp`
`MaybeFetchNewTickets`
Kind: L -/
theorem Fetched.live_young (hexp : 1 ≤ p.nTicketExpiry.toNat) {n : StakeNode}
    (h : Fetched p cr fuel n) : ∀ k v, n.liveTickets.get k = some v →
      stakeEnabled p v.height = true ∧ n.height.toNat < v.height.toNat + p.nTicketExpiry.toNat := by
  induction h with
  | genesis =>
    intro k v hk
    rw [genesisNode_liveTickets_get] at hk
    cases hk
  | connect lotteryIV ticketsVoted revs news hn hpre hfetch hc ih =>
    have hinv := hn.reachable.inv
    obtain ⟨expired, hout⟩ := connectNode_spec hinv hpre hc
    intro k v hk
    exact live_enabled_young_of_connect hinv hout hexp hfetch (fun k v hk => (ih k v hk).1) hk

end StakeNode

/-! ## The ticket count -/

namespace TicketMove

/-- Whether a move is a vote.
Source: none: infrastructure
Kind: D -/
def isVote : TicketMove → Bool
  | vote _ => true
  | _ => false

/-- Whether a move adds a ticket.
Source: none: infrastructure
Kind: D -/
def isAdd : TicketMove → Bool
  | add _ _ => true
  | _ => false

/-- A vote takes a ticket out of the treaps, an addition puts one in, and every other move
keeps it in some treap.
Source: `src/stake/stakenode.cpp` `StakeNode::ConnectNode`
Kind: L -/
theorem weight_edit {m : TicketMove} {s : Slot} (hpre : m.Pre s) :
    (m.edit s).weight + (if m.isVote then 1 else 0) = s.weight + (if m.isAdd then 1 else 0) := by
  obtain ⟨l, mi, r⟩ := s
  cases m with
  | vote k =>
    obtain ⟨hl, hm, hr⟩ := hpre
    simp only at hl hm hr
    simp [edit, Slot.weight, isVote, isAdd, hl, hm, hr]
  | miss k =>
    obtain ⟨hl, hm, hr⟩ := hpre
    simp only at hl hm hr
    simp [edit, Slot.weight, isVote, isAdd, hl, hm, hr]
  | expire k v =>
    simp only [Pre, Slot.mk.injEq] at hpre
    obtain ⟨rfl, rfl, rfl⟩ := hpre
    simp [edit, Slot.weight, isVote, isAdd]
  | revoke k =>
    obtain ⟨hl, hm, hr⟩ := hpre
    simp only at hl hm hr
    simp [edit, Slot.weight, isVote, isAdd, hl, hm, hr]
  | add k h =>
    simp only [Pre, Slot.mk.injEq] at hpre
    obtain ⟨rfl, rfl, rfl⟩ := hpre
    simp [edit, Slot.weight, isVote, isAdd]

/-- Over a list of moves: the weights after, with the votes, are the weights before, with the
additions.
Source: none: infrastructure
Kind: L -/
theorem sum_weight_edit {s₀ : Uint256 → Slot} :
    ∀ {ms : List TicketMove}, (∀ m ∈ ms, m.Pre (s₀ m.key)) →
      (ms.map fun m => (m.edit (s₀ m.key)).weight).sum + ms.countP isVote =
        (ms.map fun m => (s₀ m.key).weight).sum + ms.countP isAdd
  | [], _ => rfl
  | m :: ms, hpre => by
    have hm := weight_edit (hpre m List.mem_cons_self)
    have ih := sum_weight_edit fun m' hm' => hpre m' (List.mem_cons_of_mem _ hm')
    simp only [List.map_cons, List.sum_cons, List.countP_cons]
    split_ifs at hm ⊢ <;> omega

end TicketMove

namespace StakeNode

variable {p : Params} {cr : Crypto} {fuel : Nat}

/-- Source: none: infrastructure. Kind: L -/
theorem isVote_winnerMove (ticketsVoted : List Uint256) (k : Uint256) :
    (winnerMove ticketsVoted k).isVote = decide (k ∈ ticketsVoted) := by
  unfold winnerMove
  split_ifs with h <;> simp [TicketMove.isVote, h]

/-- Source: none: infrastructure. Kind: L -/
theorem isAdd_winnerMove (ticketsVoted : List Uint256) (k : Uint256) :
    (winnerMove ticketsVoted k).isAdd = false := by
  unfold winnerMove
  split_ifs <;> rfl

/-- The votes among a block's moves are the winners that voted.
Source: `src/stake/stakenode.cpp` `StakeNode::ConnectNode`
Kind: L -/
theorem countP_isVote_connectMoves (n : StakeNode) (ticketsVoted revs news : List Uint256)
    (expired : List TreapNode) :
    (connectMoves p n ticketsVoted revs news expired).countP TicketMove.isVote =
      if stakeEnabled p (n.height + 1) then (n.nextWinners.filter fun k => k ∈ ticketsVoted).length
      else 0 := by
  unfold connectMoves stakeMoves
  split_ifs
  · simp only [List.countP_append, List.countP_map, Function.comp_def, isVote_winnerMove]
    simp [TicketMove.isVote, List.countP_eq_length_filter]
  · simp [List.countP_map, Function.comp_def, TicketMove.isVote]

/-- The additions among a block's moves are its new tickets.
Source: `src/stake/stakenode.cpp` `StakeNode::ConnectNode`
Kind: L -/
theorem countP_isAdd_connectMoves (n : StakeNode) (ticketsVoted revs news : List Uint256)
    (expired : List TreapNode) :
    (connectMoves p n ticketsVoted revs news expired).countP TicketMove.isAdd = news.length := by
  unfold connectMoves stakeMoves
  split_ifs
  · simp only [List.countP_append, List.countP_map, Function.comp_def, isAdd_winnerMove]
    simp [TicketMove.isAdd]
  · simp [List.countP_map, Function.comp_def, TicketMove.isAdd]

/-- **A block changes the ticket count by its new tickets less the winners that voted.**
Source: `src/stake/stakenode.cpp` `StakeNode::ConnectNode`
Kind: L -/
theorem connectNode_count {n : StakeNode} (hinv : n.Inv) {lotteryIV : Uint256}
    {ticketsVoted revs news : List Uint256} (hpre : n.ConnectPre revs news) {c : StakeNode}
    (h : connectNode p cr fuel n lotteryIV ticketsVoted revs news = .ok (some c)) :
    c.ticketCount + (if stakeEnabled p c.height then
        (n.nextWinners.filter fun k => k ∈ ticketsVoted).length else 0) =
      n.ticketCount + news.length := by
  obtain ⟨expired, hout⟩ := connectNode_spec hinv hpre h
  have hcount := hout.replays.count
  have hsum := TicketMove.sum_weight_edit hout.replays.pre
  rw [countP_isVote_connectMoves, countP_isAdd_connectMoves] at hsum
  rw [hout.height]
  omega

end StakeNode

open StakeNode

/-! ## Blocks below `nStakeEnabledHeight` -/

section early

variable {p : Params} {cr : Crypto} {fuel : Nat}

/-- The new-tickets loop keeps the height.
Source: `src/stake/stakenode.cpp` `StakeNode::ConnectNode`
Kind: L -/
theorem height_foldl_addTicket (news : List Uint256) (c : StakeNode) :
    (news.foldl addTicket c).height = c.height := by
  induction news generalizing c with
  | nil => rfl
  | cons k news ih => exact ih (c.addTicket k)

/-- **Below `nStakeEnabledHeight` and the lottery, a block only adds its new tickets.**
Source: `src/stake/stakenode.cpp` `StakeNode::ConnectNode`
Kind: L -/
theorem connectNode_before_stake {n : StakeNode} (lotteryIV : Uint256)
    (ticketsVoted revs news : List Uint256) (hen : stakeEnabled p (n.height + 1) = false)
    (hdue : lotteryDue p (n.height + 1) = false) :
    connectNode p cr fuel n lotteryIV ticketsVoted revs news = .ok (some (news.foldl addTicket
      ⟨n.height + 1, n.liveTickets, n.missedTickets, n.revokedTickets, [], news, [], Uint48.zero⟩)) := by
  unfold connectNode
  simp only [hen, Bool.false_eq_true, if_false, except_ok_bind, height_foldl_addTicket, hdue]

/-- Source: `src/chainparams.cpp` `CRegTestParams`. Kind: L -/
theorem stakeEnabled_regtest_of_lt {h : UInt32} (hh : h.toNat < 2000) :
    stakeEnabled regtest h = false := by
  have hbound : (UInt32.ofInt regtest.nStakeEnabledHeight.toInt).toNat = 2000 := by decide
  unfold stakeEnabled
  rw [decide_eq_false_iff_not, ge_iff_le, UInt32.le_iff_toNat_le, hbound]
  omega

/-- Source: `src/chainparams.cpp` `CRegTestParams`. Kind: L -/
theorem lotteryDue_regtest_of_lt {h : UInt32} (hh : h.toNat < 2147483646) :
    lotteryDue regtest h = false := by
  have hbound : (UInt32.ofInt (regtest.nStakeValidationHeight.toInt - 1)).toNat = 2147483646 := by
    decide
  unfold lotteryDue
  rw [decide_eq_false_iff_not, ge_iff_le, UInt32.le_iff_toNat_le, hbound]
  omega

end early

/-! ## The invariant -/

/-- What holds of every reachable node: the three treaps hold disjoint tickets, each with its
treap's flags; from `nStakeEnabledHeight` on, live tickets are younger than `nTicketExpiry`; the
winners are distinct and live, and `nTicketsPerBlock` of them from the lottery height on; and the
next block changes the ticket count by its new tickets less the winners that voted.
Source: `src/stake/stakenode.cpp` `StakeNode::ConnectNode`
Kind: D -/
structure TicketDbOK (p : Params) (cr : Crypto) (fuel : Nat) (n : StakeNode) : Prop where
  /-- A live ticket is in no other treap. -/
  live_alone : ∀ k, (n.liveTickets.get k).isSome →
    n.missedTickets.get k = none ∧ n.revokedTickets.get k = none
  /-- A missed ticket is not revoked. -/
  missed_alone : ∀ k, (n.missedTickets.get k).isSome → n.revokedTickets.get k = none
  /-- Live tickets carry no flag. -/
  live_flags : ∀ k v, n.liveTickets.get k = some v →
    v.missed = false ∧ v.revoked = false ∧ v.spent = false ∧ v.expired = false
  /-- Missed tickets are missed, not revoked, not spent. -/
  missed_flags : ∀ k v, n.missedTickets.get k = some v →
    v.missed = true ∧ v.revoked = false ∧ v.spent = false
  /-- Revoked tickets are missed and revoked. -/
  revoked_flags : ∀ k v, n.revokedTickets.get k = some v → v.missed = true ∧ v.revoked = true
  /-- From `nStakeEnabledHeight` on, live tickets are younger than `nTicketExpiry`. -/
  live_young : stakeEnabled p n.height = true → ∀ k v, n.liveTickets.get k = some v →
    n.height.toNat < v.height.toNat + p.nTicketExpiry.toNat
  /-- The winners are distinct. -/
  winners_nodup : n.nextWinners.Nodup
  /-- The winners are live. -/
  winners_live : ∀ w ∈ n.nextWinners, (n.liveTickets.get w).isSome
  /-- From the lottery height on, a connected node has `nTicketsPerBlock` winners. -/
  winners_count : n ≠ genesisNode → lotteryDue p n.height = true →
    n.nextWinners.length = p.nTicketsPerBlock.toNat
  /-- The next block changes the ticket count by its new tickets less the voted winners. -/
  count_step : ∀ lotteryIV ticketsVoted revokedTickets newTickets c,
    n.ConnectPre revokedTickets newTickets →
    connectNode p cr fuel n lotteryIV ticketsVoted revokedTickets newTickets = .ok (some c) →
    c.ticketCount + (if stakeEnabled p c.height then
        (n.nextWinners.filter fun k => k ∈ ticketsVoted).length else 0) =
      n.ticketCount + newTickets.length

section invariant

variable {p : Params} {cr : Crypto} {fuel : Nat}

/-- The last block's facts about a reachable node: the age bound and the number of winners.
Source: `src/stake/stakenode.cpp` `StakeNode::ConnectNode`
Kind: L -/
theorem StakeNode.Reachable.young_and_drawn (hexp : 1 ≤ p.nTicketExpiry.toNat) {c : StakeNode}
    (h : Reachable p cr fuel c) :
    (stakeEnabled p c.height = true → ∀ k v, c.liveTickets.get k = some v →
      c.height.toNat < v.height.toNat + p.nTicketExpiry.toNat) ∧
    (c ≠ genesisNode → lotteryDue p c.height = true →
      c.nextWinners.length = p.nTicketsPerBlock.toNat) := by
  rcases h.last with rfl | ⟨n, lotteryIV, ticketsVoted, revs, news, expired, hinv, hout⟩
  · refine ⟨fun _ k v hk => ?_, fun hne => absurd rfl hne⟩
    rw [genesisNode_liveTickets_get] at hk
    cases hk
  · refine ⟨fun hen k v hk => live_young_of_connect hinv hout hexp hen hk, fun _ hdue => ?_⟩
    rw [hout.height] at hdue
    exact ((hout.drawn hdue).winners hout.wf.live).2.2

/-- The ticket database invariant.
Source: `src/stake/stakenode.cpp` `StakeNode::ConnectNode`, `src/validation.cpp`
`checkAllowedVotes`, `checkAllowedRevocations`
Kind: P -/
theorem ticketDb_invariant (hexp : 1 ≤ p.nTicketExpiry.toNat) {n : StakeNode}
    (hn : Reachable p cr fuel n) : TicketDbOK p cr fuel n := by
  have hinv := hn.inv
  obtain ⟨hyoung, hdrawn⟩ := hn.young_and_drawn hexp
  refine ⟨fun k hk => ?_, fun k hk => ?_, fun k v hk => ?_, fun k v hk => ?_, fun k v hk => ?_,
    hyoung, hinv.winners_nodup, hinv.winners_live, hdrawn,
    fun _ _ _ _ _ hpre hc => connectNode_count hinv hpre hc⟩
  · obtain ⟨v, hv⟩ := Option.isSome_iff_exists.1 hk
    obtain ⟨hm, hr, -⟩ := (hinv.slot_ok k).of_live (v := v) hv
    exact ⟨hm, hr⟩
  · obtain ⟨v, hv⟩ := Option.isSome_iff_exists.1 hk
    exact ((hinv.slot_ok k).of_missed (v := v) hv).2.1
  · exact ((hinv.slot_ok k).of_live hk).2.2
  · exact ((hinv.slot_ok k).of_missed hk).2.2
  · exact ((hinv.slot_ok k).of_revoked hk).2.2

/-- **The ticket database invariant on the nodes `FetchStakeNode` builds**: as no block buys a
ticket below `nStakeEnabledHeight`, every live ticket is younger than `nTicketExpiry` at every
height.
Source: `src/stake/stakenode.cpp` `StakeNode::ConnectNode`, `src/validation.cpp`
`checkAllowedVotes`, `checkAllowedRevocations`, `MaybeFetchNewTickets`
Kind: P -/
theorem ticketDb_invariant_of_fetched (hexp : 1 ≤ p.nTicketExpiry.toNat) {n : StakeNode}
    (hn : Fetched p cr fuel n) :
    TicketDbOK p cr fuel n ∧ ∀ k v, n.liveTickets.get k = some v →
      n.height.toNat < v.height.toNat + p.nTicketExpiry.toNat :=
  ⟨ticketDb_invariant hexp hn.reachable, fun k v hk => (hn.live_young hexp k v hk).2⟩

/-- On regtest, empty blocks up to height `1999` and then a block at `nStakeEnabledHeight = 2000`
that buys one ticket.
Source: `src/chainparams.cpp` `CRegTestParams`
Kind: W -/
theorem ticketDb_invariant_of_fetched_regtest :
    let cr : Crypto := ⟨fun _ => Uint256.zero, fun _ => Uint256.zero⟩
    let v : Value := ⟨2000, false, false, false, false⟩
    let n : StakeNode := ⟨2000, TicketTreap.empty.put Uint256.zero v, .empty, .empty,
      [.ofValue Uint256.zero v], [Uint256.zero], [], Uint48.zero⟩
    1 ≤ regtest.nTicketExpiry.toNat ∧ Fetched regtest cr 0 n ∧
      n.liveTickets.get Uint256.zero = some v ∧
      (TicketDbOK regtest cr 0 n ∧ ∀ k v, n.liveTickets.get k = some v →
        n.height.toNat < v.height.toNat + regtest.nTicketExpiry.toNat) := by
  intro cr v n
  -- empty blocks up to height 1999
  have hrun : ∀ i, i ≤ 1998 → Fetched regtest cr 0
      ⟨UInt32.ofNat (i + 1), .empty, .empty, .empty, [], [], [], Uint48.zero⟩ := by
    intro i
    induction i with
    | zero =>
      intro _
      refine Fetched.connect Uint256.zero [] [] [] Fetched.genesis (ConnectPre.nil _)
        (fun _ => rfl) ?_
      rw [connectNode_before_stake _ _ _ _ (by decide) (by decide)]
      rfl
    | succ i ih =>
      intro hi
      have hh : UInt32.ofNat (i + 1) + 1 = UInt32.ofNat (i + 1 + 1) := by
        apply UInt32.toNat_inj.1
        rw [UInt32.toNat_add, UInt32.toNat_ofNat', UInt32.toNat_ofNat', UInt32.toNat_one]
        omega
      have hnat : (UInt32.ofNat (i + 1 + 1)).toNat = i + 2 := by
        rw [UInt32.toNat_ofNat']
        omega
      refine Fetched.connect Uint256.zero [] [] [] (ih (by omega)) (ConnectPre.nil _)
        (fun _ => rfl) ?_
      rw [connectNode_before_stake _ _ _ _ (by rw [hh]; exact stakeEnabled_regtest_of_lt (by omega))
        (by rw [hh]; exact lotteryDue_regtest_of_lt (by omega))]
      simp only [List.foldl_nil, hh]
  -- the block at height 2000 buys the ticket
  have hn : Fetched regtest cr 0 n :=
    Fetched.connect Uint256.zero [] [] [Uint256.zero] (hrun 1998 le_rfl)
      ⟨fun _ hk => absurd hk List.not_mem_nil, List.nodup_singleton _, fun _ _ => rfl⟩
      (fun h => absurd h (by decide)) rfl
  have hget : n.liveTickets.get Uint256.zero = some v := by
    show (TicketTreap.empty.put Uint256.zero v).get Uint256.zero = some v
    rw [get_put WF.empty, if_pos rfl]
  exact ⟨by decide, hn, hget, ticketDb_invariant_of_fetched (by decide) hn⟩

end invariant

end BwsCoin.Stake
