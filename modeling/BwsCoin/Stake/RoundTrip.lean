import BwsCoin.Stake.Invariant

/-!
# Disconnecting a block undoes it

`DisconnectNode` rebuilds a node's parent from the node's undo data. Each entry's flags choose
one of five restore paths (a new ticket, a revocation, an expiry, a missed winner, a spent
winner); the two winner paths push the ticket back to the winners, in the order of the undo
data; then the lottery's checksum is recomputed from the parent's lottery IV.

* `stepEdits_restoreTicket` — a turn of the loop edits the entry's slot (`restoreEdit`) and gives
  back the winners of `restorePush`;
* `TicketMove.restore_record` — on a consistent slot, restoring a move's record after the move
  gives the slot back; with `KeyedReplay.replay_undo` the loop gives back the parent's slots and
  winners (`restore_of_connect`);
* `disconnect_connect_roundTrip` — **the round trip**: disconnecting a child of a reachable node
  `n` (above genesis) with `n`'s undo data, new tickets and lottery IV gives a node equal to `n`,
  treaps compared as maps. It needs the lottery to start at a positive height no lower than
  `nStakeEnabledHeight ≥ 0`, which the shipped parameter sets satisfy (their
  `nStakeValidationHeight` is `2147483647`), and the child's height not to wrap around `2^32`.
  With `nStakeValidationHeight = 0` the two would disagree on the parent's lottery
  (`lotteryDue` compares with `0 - 1`, i.e. `2^32 - 1`, and `parentDrewLottery` with `0`); no
  network has such parameters.
-/

namespace BwsCoin.Stake

open BinaryTree TicketTreap KeyedReplay Consensus

/-! ## Treaps with the same contents -/

namespace TicketTreap

variable {t₁ t₂ : TicketTreap}

/-- Well-formed treaps with the same lookups have the same in-order entries.
Source: `src/stake/treap/tickettreap.cpp` `TicketTreap::get`
Kind: L -/
theorem entries_eq_of_get (h₁ : t₁.WF) (h₂ : t₂.WF) (h : t₁.get = t₂.get) :
    entries t₁.root = entries t₂.root := by
  apply SortedKV.eq_of_find?_eq (keySorted_iff_sorted.1 h₁.tree.sorted)
    (keySorted_iff_sorted.1 h₂.tree.sorted)
  intro k
  rw [← get_eq_find? h₁.tree.sorted, ← get_eq_find? h₂.tree.sorted, h]

/-- Well-formed treaps with the same lookups have the same length.
Source: `src/stake/treap/tickettreap.cpp` `TicketTreap::len`
Kind: L -/
theorem len_eq_of_get (h₁ : t₁.WF) (h₂ : t₂.WF) (h : t₁.get = t₂.get) : t₁.len = t₂.len := by
  rw [len_eq_length_entries h₁, len_eq_length_entries h₂, entries_eq_of_get h₁ h₂ h]

end TicketTreap

/-! ## A turn of `DisconnectNode` -/

/-- The entries `DisconnectNode` can restore: every flag combination but "revoked, neither
missed nor spent".
Source: `src/stake/stakenode.cpp` `StakeNode::DisconnectNode`
Kind: D -/
def UndoTicketData.Restorable (it : UndoTicketData) : Prop :=
  it.missed = true ∨ it.revoked = false ∨ it.spent = true

namespace StakeNode

/-- What a turn of `DisconnectNode`'s loop does to the slot of the entry's ticket, branch by
branch as `restoreTicket`.
Source: `src/stake/stakenode.cpp` `StakeNode::DisconnectNode`
Kind: D -/
def restoreEdit (it : UndoTicketData) (s : Slot) : Slot :=
  let v : Value := ⟨it.ticketHeight, it.missed, it.revoked, it.spent, it.expired⟩
  if !it.missed && !it.revoked && !it.spent then { s with live := none }
  else if it.missed && it.revoked then
    { s with revoked := none, missed := some { v with revoked := false } }
  else if it.missed && !it.revoked then
    let v := if !it.expired then v else { v with expired := false }
    { s with missed := none, live := some { v with missed := false } }
  else if it.spent then { s with live := some { v with spent := false } }
  else s

/-- The winners a turn of `DisconnectNode`'s loop gives back: a missed winner's ticket (missed,
not expired) or a spent one.
Source: `src/stake/stakenode.cpp` `StakeNode::DisconnectNode`
Kind: D -/
def restorePush (it : UndoTicketData) : List Uint256 :=
  if !it.missed && !it.revoked && !it.spent then []
  else if it.missed && it.revoked then []
  else if it.missed && !it.revoked then (if !it.expired then [it.ticketHash] else [])
  else if it.spent then [it.ticketHash]
  else []

/-- The fields of the node being rebuilt that the loop leaves alone.
Source: none: infrastructure
Kind: D -/
def disconnectFrame (r : StakeNode) : UInt32 × List UndoTicketData × List Uint256 × Uint48 :=
  (r.height, r.databaseUndoUpdate, r.databaseBlockTickets, r.finalState)

/-- A turn of the loop returns on every entry it can restore.
Source: `src/stake/stakenode.cpp` `StakeNode::DisconnectNode`
Kind: L -/
theorem restoreTicket_ok {it : UndoTicketData} (h : it.Restorable) (r : StakeNode) :
    ∃ r', restoreTicket r it = .ok r' := by
  unfold restoreTicket
  -- the five restore paths return; the last branch is the combination `Restorable` excludes
  split_ifs with h₁ h₂ h₃ h₄ h₅
  · exact ⟨_, rfl⟩
  · exact ⟨_, rfl⟩
  · exact ⟨_, rfl⟩
  · exact ⟨_, rfl⟩
  · exact ⟨_, rfl⟩
  · exfalso
    rcases h with h | h | h <;> simp_all

/-- **A turn of `DisconnectNode`'s loop is one slot edit.**
Source: `src/stake/stakenode.cpp` `StakeNode::DisconnectNode`
Kind: L -/
theorem stepEdits_restoreTicket :
    StepEdits UndoTicketData.ticketHash restoreEdit slot nextWinners disconnectFrame TreapsWF
      (fun _ _ => True) (fun it _ => restorePush it) restoreTicket := by
  intro r it r' hwf _ hstep
  unfold restoreTicket at hstep
  split_ifs at hstep with h₁ h₂ h₃ h₄ h₅
  · -- a new ticket leaves the live treap
    cases hstep
    refine ⟨⟨wf_deleteKey hwf.live _, hwf.missed, hwf.revoked⟩, rfl, slot_update ?_ ?_ ?_, ?_⟩
    · simpa [restoreEdit, h₁, slot] using get_deleteKey_eq_update hwf.live it.ticketHash
    · simp [restoreEdit, h₁, slot]
    · simp [restoreEdit, h₁, slot]
    · simp [restorePush, h₁]
  · -- a revoked ticket goes back to the missed treap
    cases hstep
    refine ⟨⟨hwf.live, wf_put hwf.missed _ _, wf_deleteKey hwf.revoked _⟩, rfl,
      slot_update ?_ ?_ ?_, ?_⟩
    · simp [restoreEdit, h₁, h₂, slot]
    · simpa [restoreEdit, h₁, h₂, slot] using get_put_eq_update hwf.missed it.ticketHash _
    · simpa [restoreEdit, h₁, h₂, slot] using get_deleteKey_eq_update hwf.revoked it.ticketHash
    · simp [restorePush, h₁, h₂]
  · -- a missed winner goes back to the live treap and the winners
    cases hstep
    refine ⟨⟨wf_put hwf.live _ _, wf_deleteKey hwf.missed _, hwf.revoked⟩, rfl,
      slot_update ?_ ?_ ?_, ?_⟩
    · simpa [restoreEdit, h₁, h₂, h₃, h₄, slot] using get_put_eq_update hwf.live it.ticketHash _
    · simpa [restoreEdit, h₁, h₂, h₃, h₄, slot] using
        get_deleteKey_eq_update hwf.missed it.ticketHash
    · simp [restoreEdit, h₁, h₂, h₃, h₄, slot]
    · simp [restorePush, h₁, h₂, h₃, h₄]
  · -- an expired ticket goes back to the live treap only
    cases hstep
    refine ⟨⟨wf_put hwf.live _ _, wf_deleteKey hwf.missed _, hwf.revoked⟩, rfl,
      slot_update ?_ ?_ ?_, ?_⟩
    · simpa [restoreEdit, h₁, h₂, h₃, h₄, slot] using get_put_eq_update hwf.live it.ticketHash _
    · simpa [restoreEdit, h₁, h₂, h₃, h₄, slot] using
        get_deleteKey_eq_update hwf.missed it.ticketHash
    · simp [restoreEdit, h₁, h₂, h₃, h₄, slot]
    · simp [restorePush, h₁, h₂, h₃, h₄]
  · -- a spent winner goes back to the live treap and the winners
    cases hstep
    refine ⟨⟨wf_put hwf.live _ _, hwf.missed, hwf.revoked⟩, rfl, slot_update ?_ ?_ ?_, ?_⟩
    · simpa [restoreEdit, h₁, h₂, h₃, h₅, slot] using get_put_eq_update hwf.live it.ticketHash _
    · simp [restoreEdit, h₂, h₃, h₅, slot]
    · simp [restoreEdit, h₂, h₃, h₅, slot]
    · simp [restorePush, h₂, h₃, h₅]

end StakeNode

/-! ## Restoring the records of a move -/

namespace TicketMove

open StakeNode

/-- The winners that restoring a move's record gives back: the ticket of a vote or a miss.
Source: `src/stake/stakenode.cpp` `StakeNode::DisconnectNode`
Kind: D -/
def restoredWinners : TicketMove → List Uint256
  | vote k => [k]
  | miss k => [k]
  | _ => []

variable {m : TicketMove} {s : Slot}

/-- A move that finds its ticket records exactly one entry, about that ticket.
Source: `src/stake/stakenode.cpp` `StakeNode::ConnectNode`
Kind: L -/
theorem record_singleton (hpre : m.Pre s) : ∃ it, m.record s = [it] ∧ it.ticketHash = m.key := by
  cases m with
  | vote k =>
    obtain ⟨v, hv⟩ := Option.isSome_iff_exists.1 hpre.1
    exact ⟨.ofValue k (winnerValue true v), by simp [record, hv], rfl⟩
  | miss k =>
    obtain ⟨v, hv⟩ := Option.isSome_iff_exists.1 hpre.1
    exact ⟨.ofValue k (winnerValue false v), by simp [record, hv], rfl⟩
  | expire k v => exact ⟨_, rfl, rfl⟩
  | revoke k =>
    obtain ⟨v, hv⟩ := Option.isSome_iff_exists.1 hpre.2.1
    exact ⟨.ofValue k { v with revoked := true }, by simp [record, hv], rfl⟩
  | add k h => exact ⟨_, rfl, rfl⟩

/-- Every entry a move records names the move's ticket.
Source: `src/stake/stakenode.cpp` `StakeNode::ConnectNode`
Kind: L -/
theorem ticketHash_of_mem_record {it : UndoTicketData} (h : it ∈ m.record s) :
    it.ticketHash = m.key := by
  cases m with
  | vote k | miss k | revoke k =>
    simp only [record, Option.mem_toList, Option.map_eq_some_iff] at h
    obtain ⟨v, -, rfl⟩ := h
    rfl
  | expire k v | add k t =>
    simp only [record, List.mem_singleton] at h
    rw [h]
    rfl

/-- On a consistent slot, a move records an entry that `DisconnectNode` can restore, restoring
it after the move gives the slot back, and it gives back the move's winner.
Source: `src/stake/stakenode.cpp` `StakeNode::ConnectNode`, `StakeNode::DisconnectNode`
Kind: L -/
theorem restore_record (hpre : m.Pre s) (hs : s.OK) :
    (∀ it ∈ m.record s, it.Restorable) ∧
      (m.record s).foldl (fun s it => restoreEdit it s) (m.edit s) = s ∧
      (m.record s).flatMap restorePush = m.restoredWinners := by
  obtain ⟨l, mi, r⟩ := s
  cases m with
  | vote k =>
    obtain ⟨hl, hm, hr⟩ := hpre
    simp only at hl hm hr
    subst hm hr
    obtain ⟨⟨h, vm, vr, vs, ve⟩, rfl⟩ := Option.isSome_iff_exists.1 hl
    obtain ⟨-, -, rfl, rfl, rfl, rfl⟩ := hs.of_live rfl
    simp [record, edit, restoreEdit, restorePush, restoredWinners, winnerValue,
      UndoTicketData.ofValue, UndoTicketData.Restorable]
  | miss k =>
    obtain ⟨hl, hm, hr⟩ := hpre
    simp only at hl hm hr
    subst hm hr
    obtain ⟨⟨h, vm, vr, vs, ve⟩, rfl⟩ := Option.isSome_iff_exists.1 hl
    obtain ⟨-, -, rfl, rfl, rfl, rfl⟩ := hs.of_live rfl
    simp [record, edit, restoreEdit, restorePush, restoredWinners, winnerValue,
      UndoTicketData.ofValue, UndoTicketData.Restorable]
  | expire k v =>
    simp only [Pre, Slot.mk.injEq] at hpre
    obtain ⟨rfl, rfl, rfl⟩ := hpre
    obtain ⟨h, vm, vr, vs, ve⟩ := v
    obtain ⟨-, -, rfl, rfl, rfl, rfl⟩ := hs.of_live rfl
    simp [record, edit, restoreEdit, restorePush, restoredWinners, expiredValue,
      UndoTicketData.ofValue, UndoTicketData.Restorable]
  | revoke k =>
    obtain ⟨hl, hm, hr⟩ := hpre
    simp only at hl hm hr
    subst hl hr
    obtain ⟨⟨h, vm, vr, vs, ve⟩, rfl⟩ := Option.isSome_iff_exists.1 hm
    obtain ⟨-, -, rfl, rfl, rfl⟩ := hs.of_missed rfl
    simp [record, edit, restoreEdit, restorePush, restoredWinners,
      UndoTicketData.ofValue, UndoTicketData.Restorable]
  | add k h =>
    simp only [Pre, Slot.mk.injEq] at hpre
    obtain ⟨rfl, rfl, rfl⟩ := hpre
    simp [record, edit, restoreEdit, restorePush, restoredWinners,
      UndoTicketData.ofValue, UndoTicketData.Restorable]

end TicketMove

/-! ## The loop of `DisconnectNode` -/

namespace StakeNode

/-- **Restoring the records of a replay.** On a node whose slots are a replay of moves over
distinct tickets from consistent slots, `DisconnectNode`'s loop over the moves' records returns,
gives back the slots before the replay and pushes the moves' winners.
Source: `src/stake/stakenode.cpp` `StakeNode::DisconnectNode`
Kind: L -/
theorem restore_loop {ms : List TicketMove} {s₀ : Uint256 → Slot}
    (hnd : (ms.map TicketMove.key).Nodup) (hpre : ∀ m ∈ ms, m.Pre (s₀ m.key))
    (hok : ∀ k, (s₀ k).OK) {r : StakeNode} (hwf : r.TreapsWF)
    (hslot : r.slot = replay TicketMove.key TicketMove.edit ms s₀) :
    ∃ r', (ms.flatMap fun m => m.record (s₀ m.key)).foldlM restoreTicket r = .ok r' ∧
      r'.TreapsWF ∧ disconnectFrame r' = disconnectFrame r ∧ r'.slot = s₀ ∧
      r'.nextWinners = r.nextWinners ++ ms.flatMap TicketMove.restoredWinners := by
  have hrec : ∀ m ∈ ms, _ := fun m hm => TicketMove.restore_record (hpre m hm) (hok m.key)
  -- every entry can be restored, so the loop returns
  have hknown : ∀ it ∈ ms.flatMap (fun m => m.record (s₀ m.key)), it.Restorable := by
    intro it hit
    obtain ⟨m, hm, hit⟩ := List.mem_flatMap.1 hit
    exact (hrec m hm).1 it hit
  obtain ⟨r', hrun⟩ := foldlM_exists_ok r fun c it hit => restoreTicket_ok (hknown it hit) c
  -- the entries name the moves' tickets, one each
  have hkeys : (ms.flatMap fun m => m.record (s₀ m.key)).map UndoTicketData.ticketHash =
      ms.map TicketMove.key := by
    rw [List.map_flatMap, List.map_eq_flatMap]
    apply List.flatMap_congr
    intro m hm
    obtain ⟨it, hit, hkey⟩ := TicketMove.record_singleton (hpre m hm)
    rw [hit, List.map_singleton, hkey]
  obtain ⟨hwf', hframe, hslot', hout⟩ :=
    foldlM_of_stepEdits _ _ _ _ _ _ _ _ stepEdits_restoreTicket (by rw [hkeys]; exact hnd)
      (fun _ _ => trivial) hwf hrun
  refine ⟨r', hrun, hwf', hframe, ?_, ?_⟩
  · rw [hslot', hslot]
    exact replay_undo _ _ _ _ _ (fun _ _ _ hit => TicketMove.ticketHash_of_mem_record hit) hnd
      fun m hm => (hrec m hm).2.1
  · rw [hout, List.flatMap_assoc]
    congr 1
    exact List.flatMap_congr fun m hm => (hrec m hm).2.2

/-- The winners a block's records give back: the parent's winners, when the block ran the
stake rules.
Source: `src/stake/stakenode.cpp` `StakeNode::DisconnectNode`
Kind: L -/
theorem flatMap_restoredWinners_connectMoves {p : Params} (n : StakeNode)
    (ticketsVoted revs news : List Uint256) (expired : List TreapNode) :
    (connectMoves p n ticketsVoted revs news expired).flatMap TicketMove.restoredWinners =
      if stakeEnabled p (n.height + 1) then n.nextWinners else [] := by
  have hwin : ∀ k, (winnerMove ticketsVoted k).restoredWinners = [k] := fun k => by
    unfold winnerMove
    split_ifs <;> rfl
  unfold connectMoves stakeMoves
  split_ifs
  · simp only [List.flatMap_append, List.flatMap_map, hwin]
    simp [TicketMove.restoredWinners]
  · simp [List.flatMap_map, TicketMove.restoredWinners]

section roundTrip

variable {p : Params} {cr : Crypto} {fuel : Nat}

/-- **`DisconnectNode`'s loop undoes a block**: over the undo data of a child of `n`, it returns
with `n`'s slots, and pushes `n`'s winners when the block ran the stake rules.
Source: `src/stake/stakenode.cpp` `StakeNode::DisconnectNode`
Kind: L -/
theorem restore_of_connect {n : StakeNode} (hinv : n.Inv) {lotteryIV : Uint256}
    {ticketsVoted revs news : List Uint256} {expired : List TreapNode} {c : StakeNode}
    (hout : ConnectOutcome p cr fuel n lotteryIV ticketsVoted revs news expired c)
    (r₀ : StakeNode) (hwf : r₀.TreapsWF) (hslot : r₀.slot = c.slot) :
    ∃ r, c.databaseUndoUpdate.foldlM restoreTicket r₀ = .ok r ∧ r.TreapsWF ∧
      disconnectFrame r = disconnectFrame r₀ ∧ r.slot = n.slot ∧
      r.nextWinners = r₀.nextWinners ++ if stakeEnabled p (n.height + 1) then n.nextWinners else [] := by
  have hrep := hout.replays
  obtain ⟨r, hrun, hwf', hframe, hslot', hwin⟩ :=
    restore_loop hrep.nodup hrep.pre hinv.slot_ok hwf (hslot.trans hrep.slot)
  refine ⟨r, ?_, hwf', hframe, hslot', ?_⟩
  · rw [hrep.undo, List.nil_append]
    exact hrun
  · rw [hwin, flatMap_restoredWinners_connectMoves]

/-! ### The heights on both sides -/

/-- Source: none: infrastructure. Kind: L -/
theorem toNat_ofInt_of_nonneg {i : Int} (h0 : 0 ≤ i) (h1 : i < 2 ^ 32) :
    (UInt32.ofInt i).toNat = i.toNat := by
  have hof : UInt32.ofInt i = UInt32.ofNat (i % 2 ^ 32).toNat := UInt32.toFin_inj.mp rfl
  rw [hof, UInt32.toNat_ofNat', Int.emod_eq_of_lt h0 h1]
  omega

/-- Source: none: infrastructure. Kind: L -/
theorem toNat_succ_of_lt {h : UInt32} (hw : h.toNat + 1 < 2 ^ 32) : (h + 1).toNat = h.toNat + 1 := by
  rw [UInt32.toNat_add, UInt32.toNat_one]
  exact Nat.mod_eq_of_lt hw

/-- One block up, the parent drew the lottery exactly when the lottery was due at its height.
Source: `src/stake/stakenode.cpp` `StakeNode::ConnectNode`, `StakeNode::DisconnectNode`
Kind: L -/
theorem parentDrewLottery_succ (hsvh : 1 ≤ p.nStakeValidationHeight) {h : UInt32}
    (hw : h.toNat + 1 < 2 ^ 32) : parentDrewLottery p (h + 1) = lotteryDue p h := by
  have h1 : 1 ≤ p.nStakeValidationHeight.toInt := by
    simpa using Int32.le_iff_toInt_le.1 hsvh
  have h2 := Int32.toInt_le p.nStakeValidationHeight
  have hS := toNat_ofInt_of_nonneg (i := p.nStakeValidationHeight.toInt) (by omega)
    (lt_of_le_of_lt h2 (by decide))
  have hS₁ := toNat_ofInt_of_nonneg (i := p.nStakeValidationHeight.toInt - 1) (by omega)
    (by have : Int32.maxValue.toInt < 2 ^ 32 := by decide
        omega)
  unfold parentDrewLottery lotteryDue
  rw [decide_eq_decide, ge_iff_le, ge_iff_le, UInt32.le_iff_toNat_le, UInt32.le_iff_toNat_le,
    toNat_succ_of_lt hw, hS, hS₁]
  omega

/-- From the lottery height on, the next block runs the stake rules, when the lottery does not
start below `nStakeEnabledHeight`.
Source: `src/stake/stakenode.cpp` `StakeNode::ConnectNode`
Kind: L -/
theorem stakeEnabled_succ_of_lotteryDue (hseh : 0 ≤ p.nStakeEnabledHeight)
    (hle : p.nStakeEnabledHeight ≤ p.nStakeValidationHeight) (hsvh : 1 ≤ p.nStakeValidationHeight)
    {h : UInt32} (hw : h.toNat + 1 < 2 ^ 32) (hdue : lotteryDue p h = true) :
    stakeEnabled p (h + 1) = true := by
  have h0 : 0 ≤ p.nStakeEnabledHeight.toInt := by simpa using Int32.le_iff_toInt_le.1 hseh
  have hle' := Int32.le_iff_toInt_le.1 hle
  have h1 : 1 ≤ p.nStakeValidationHeight.toInt := by simpa using Int32.le_iff_toInt_le.1 hsvh
  have h2 := Int32.toInt_le p.nStakeValidationHeight
  have hmax : Int32.maxValue.toInt < 2 ^ 32 := by decide
  have hE := toNat_ofInt_of_nonneg (i := p.nStakeEnabledHeight.toInt) h0 (by omega)
  have hS₁ := toNat_ofInt_of_nonneg (i := p.nStakeValidationHeight.toInt - 1) (by omega) (by omega)
  unfold lotteryDue at hdue
  unfold stakeEnabled
  rw [decide_eq_true_iff, ge_iff_le, UInt32.le_iff_toNat_le, hS₁] at hdue
  rw [decide_eq_true_iff, ge_iff_le, UInt32.le_iff_toNat_le, toNat_succ_of_lt hw, hE]
  omega

/-- The round trip of a block.
Source: `src/stake/stakenode.cpp` `StakeNode::ConnectNode`, `StakeNode::DisconnectNode`
Kind: P -/
theorem disconnect_connect_roundTrip (hseh : 0 ≤ p.nStakeEnabledHeight)
    (hle : p.nStakeEnabledHeight ≤ p.nStakeValidationHeight) (hsvh : 1 ≤ p.nStakeValidationHeight)
    {m n : StakeNode} (hm : Reachable p cr fuel m) {ivParent : Uint256}
    {votes' revs' news' : List Uint256} (hpre' : m.ConnectPre revs' news')
    (hn : connectNode p cr fuel m ivParent votes' revs' news' = .ok (some n))
    (hh : 1 ≤ n.height.toNat) (hw : n.height.toNat + 1 < 2 ^ 32) {lotteryIV : Uint256}
    {ticketsVoted revs news : List Uint256} (hpre : n.ConnectPre revs news) {c : StakeNode}
    (hc : connectNode p cr fuel n lotteryIV ticketsVoted revs news = .ok (some c)) :
    ∃ r, disconnectNode p cr fuel c ivParent n.undoData n.newTickets = .ok (some r) ∧
      r.height = n.height ∧ r.liveTickets.get = n.liveTickets.get ∧
      r.missedTickets.get = n.missedTickets.get ∧ r.revokedTickets.get = n.revokedTickets.get ∧
      r.databaseUndoUpdate = n.databaseUndoUpdate ∧
      r.databaseBlockTickets = n.databaseBlockTickets ∧
      r.nextWinners = n.nextWinners ∧ r.finalState = n.finalState := by
  have hinv : n.Inv := (Reachable.connect _ _ _ _ hm hpre' hn).inv
  obtain ⟨expN, outN⟩ := connectNode_spec hm.inv hpre' hn
  obtain ⟨expC, outC⟩ := connectNode_spec hinv hpre hc
  have hne : c.height ≠ 1 := by
    intro h1
    have := congrArg UInt32.toNat h1
    rw [outC.height, toNat_succ_of_lt hw, UInt32.toNat_one] at this
    omega
  -- the loop rebuilds `n`'s slots from `c`'s undo data
  obtain ⟨r, hrun, hwf, hframe, hslot, hwin⟩ := restore_of_connect hinv outC
    ⟨c.height - 1, c.liveTickets, c.missedTickets, c.revokedTickets, n.databaseUndoUpdate,
      n.databaseBlockTickets, [], Uint48.zero⟩ ⟨outC.wf.live, outC.wf.missed, outC.wf.revoked⟩ rfl
  simp only [disconnectFrame, Prod.mk.injEq] at hframe
  obtain ⟨hrh, hru, hrb, hrs⟩ := hframe
  have hrh' : r.height = n.height := by rw [hrh, outC.height, UInt32.add_sub_cancel]
  have hlive : r.liveTickets.get = n.liveTickets.get := funext fun k => congrArg Slot.live (congrFun hslot k)
  have hmissed : r.missedTickets.get = n.missedTickets.get :=
    funext fun k => congrArg Slot.missed (congrFun hslot k)
  have hrevoked : r.revokedTickets.get = n.revokedTickets.get :=
    funext fun k => congrArg Slot.revoked (congrFun hslot k)
  -- the winners come back when `n` has any
  have hwin' : r.nextWinners = n.nextWinners := by
    rw [hwin, List.nil_append]
    by_cases hdue : lotteryDue p n.height = true
    · rw [if_pos (stakeEnabled_succ_of_lotteryDue hseh hle hsvh hw hdue)]
    · have hund := (outN.undrawn (by rw [← outN.height]; exact Bool.eq_false_iff.2 hdue)).1
      rw [hund]
      split_ifs <;> rfl
  unfold disconnectNode
  simp only [hne, if_false, undoData, newTickets, hrun, except_ok_bind]
  rw [outC.height, parentDrewLottery_succ hsvh hw]
  by_cases hdue : lotteryDue p n.height = true
  · -- `n` drew its winners from `ivParent` over a pool as large as the rebuilt one
    have hdraw := outN.drawn (by rw [← outN.height]; exact hdue)
    obtain ⟨idxs, prng, hfind, -, hstate⟩ := hdraw.draw
    have hlen : r.liveTickets.len = n.liveTickets.len := len_eq_of_get hwf.live hinv.wf.live hlive
    rw [if_pos hdue, if_neg (by rw [hlen]; exact Nat.not_lt.2 hdraw.enough), hlen, hfind]
    refine ⟨_, rfl, hrh', hlive, hmissed, hrevoked, hru, hrb, hwin', ?_⟩
    show lotteryState cr r.nextWinners prng = n.finalState
    rw [hwin', hstate]
  · have hund := outN.undrawn (by rw [← outN.height]; exact Bool.eq_false_iff.2 hdue)
    rw [if_neg hdue]
    exact ⟨r, rfl, hrh', hlive, hmissed, hrevoked, hru, hrb, hwin', by rw [hrs, hund.2]⟩

/-- The round trip on main for the first two blocks: block 1 buys a ticket, block 2 is empty.
Source: `src/chainparams.cpp` `CMainParams`
Kind: P -/
theorem roundTrip_main_two_blocks :
    ∃ n c : StakeNode,
      connectNode main ⟨fun _ => Uint256.zero, fun _ => Uint256.zero⟩ 0 genesisNode Uint256.zero
        [] [] [Uint256.zero] = .ok (some n) ∧
      connectNode main ⟨fun _ => Uint256.zero, fun _ => Uint256.zero⟩ 0 n Uint256.zero
        [] [] [] = .ok (some c) ∧
      ∃ r, disconnectNode main ⟨fun _ => Uint256.zero, fun _ => Uint256.zero⟩ 0 c Uint256.zero
          n.undoData n.newTickets = .ok (some r) ∧
        r.height = n.height ∧ r.liveTickets.get = n.liveTickets.get ∧
        r.missedTickets.get = n.missedTickets.get ∧ r.revokedTickets.get = n.revokedTickets.get ∧
        r.databaseUndoUpdate = n.databaseUndoUpdate ∧
        r.databaseBlockTickets = n.databaseBlockTickets ∧
        r.nextWinners = n.nextWinners ∧ r.finalState = n.finalState := by
  -- both blocks are below `nStakeEnabledHeight`; block 1's node is reachable and above genesis
  refine ⟨_, _, connectNode_before_stake Uint256.zero [] [] [Uint256.zero] (by decide) (by decide),
    connectNode_before_stake Uint256.zero [] [] [] (by decide) (by decide),
    disconnect_connect_roundTrip (by decide) (by decide) (by decide) Reachable.genesis
      ⟨fun _ hk => absurd hk List.not_mem_nil, List.nodup_singleton _, fun k _ => genesisNode_slot k⟩
      (connectNode_before_stake Uint256.zero [] [] [Uint256.zero] (by decide) (by decide))
      (by decide) (by decide)
      (ConnectPre.nil _)
      (connectNode_before_stake Uint256.zero [] [] [] (by decide) (by decide))⟩

end roundTrip

end StakeNode

end BwsCoin.Stake
