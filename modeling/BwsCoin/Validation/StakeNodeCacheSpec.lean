import BwsCoin.Validation.StakeNodeCache
import BwsCoin.Chain.ActiveChainSpec

/-!
# What `FetchStakeNode` returns

The stake node of a block is the node `ConnectNode` gives when it is replayed from `genesisNode`
along the block's ancestry (`replayStakeNode`); a cache is coherent when every node it holds is
the replayed node of its block. On a coherent cache:

* the fast path, taken whenever the parent's node is loaded, returns the replayed node and loads
  it (`fetchStakeNode_of_parent_loaded`). Every caller in `src/validation.cpp` (`AcceptBlock`,
  `ConnectBlock`, `LoadBlockIndexDB`) loads or asserts the parent's node first;
* whatever `FetchStakeNode` returns is the replayed node, and the cache stays coherent
  (`fetchStakeNode_returns_replayed`);
* the callers load a node only at the genesis entry or on a loaded parent, so the loaded nodes
  sit on loaded parents (`ParentsLoaded`). On such a cache, with the tip loaded, `FetchStakeNode`
  of any block sharing an ancestor with the tip is the replay, and leaves such a cache again
  (`fetchStakeNode_eq_replay`): the walk from the tip skips the loaded ancestry
  (`disconnectWalk_of_loaded`), and the walk up from the loaded fork point replays the branch
  (`attachWalk_attachNodes_map`);
* the walk from the tip never loads a node (`disconnectWalk_eq_ok`): it skips a loaded parent and
  dereferences a missing one. So on a cache whose loaded nodes do not sit on loaded parents, a
  block of the active chain below the tip whose node and whose parent's node are both missing
  makes `FetchStakeNode` dereference a null node (`fetchStakeNode_faults_on_active_chain`).

The model reads `chainActive` as the ancestry of its tip. That is what the vector of `CChain`
holds after any run of `SetTip` calls (`Chain.setTip_run`), and there `Contains` and `FindFork`,
with its `GetAncestor` through valid skip pointers, compute `chainContains` and `findFork`
(`findFork_of_tipSlots`).
-/

namespace BwsCoin.Stake

open Consensus RootedChain

section spec

variable (p : Params) (cr : Crypto) (fuel : Nat)

/-- The stake node of a block replayed from genesis: `genesisNode` at the genesis entry, and
elsewhere the parent's replayed node connected with the block's data.
Source: `src/stake/stakenode.cpp` `StakeNode::genesisNode`, `StakeNode::ConnectNode`
Kind: D (specification) -/
def replayStakeNode : StakeBlockIndex → Except Fault (Option StakeNode)
  | .root _ => .ok (some StakeNode.genesisNode)
  | .cons prev a =>
    replayStakeNode prev >>= deref >>= connectBlockStake p cr fuel (.cons prev a)

/-- Every node the cache holds is the replayed node of its block.
Source: none: specification
Kind: D -/
def Coherent (cache : StakeNodeCache) : Prop :=
  ∀ b n, cache b = some n → replayStakeNode p cr fuel b = .ok (some n)

/-- Every loaded node's parent's node is loaded: `ConnectBlock`, `AcceptBlock` and
`LoadBlockIndexDB` load a node only at the genesis entry or on a loaded parent, and nothing
unloads one.
Source: `src/validation.cpp` `ConnectBlock`, `AcceptBlock`, `LoadBlockIndexDB`
Kind: D -/
def ParentsLoaded (cache : StakeNodeCache) : Prop :=
  ∀ prev a, cache (.cons prev a) ≠ none → cache prev ≠ none

end spec

variable {p : Params} {cr : Crypto} {fuel : Nat}

/-! ## Dereferences and the replay -/

section replay

/-- Source: none: infrastructure. Kind: L -/
@[simp] theorem deref_some {α : Type} (a : α) : deref (some a) = .ok a := rfl

/-- Source: none: infrastructure. Kind: L -/
@[simp] theorem deref_none {α : Type} : deref (none : Option α) = .error .nullDeref := rfl

/-- Source: none: infrastructure. Kind: L -/
theorem deref_eq_ok {α : Type} {o : Option α} {a : α} : deref o = .ok a ↔ o = some a := by
  cases o with
  | none => simp
  | some b => simp

/-- A block whose parent's replayed node is `n` has `n` connected with its data as its own.
Source: `src/stake/stakenode.cpp` `StakeNode::ConnectNode`
Kind: L -/
theorem replayStakeNode_of_parent {prev : StakeBlockIndex} {a : StakeFields} {n : StakeNode}
    (h : replayStakeNode p cr fuel prev = .ok (some n)) :
    replayStakeNode p cr fuel (.cons prev a) = connectBlockStake p cr fuel (.cons prev a) n := by
  simp only [replayStakeNode, h, except_ok_bind, deref_some]

/-- A loaded node of a coherent cache is the replayed node.
Source: none: specification
Kind: L -/
theorem Coherent.replay_eq {cache : StakeNodeCache} (hcoh : Coherent p cr fuel cache)
    {b : StakeBlockIndex} (hb : cache b ≠ none) : replayStakeNode p cr fuel b = .ok (cache b) := by
  obtain ⟨n, hn⟩ := Option.ne_none_iff_exists'.mp hb
  rw [hn]
  exact hcoh b n hn

/-- Loading the replayed node of a block keeps a cache coherent.
Source: none: specification
Kind: L -/
theorem Coherent.update {cache : StakeNodeCache} (hcoh : Coherent p cr fuel cache)
    {b : StakeBlockIndex} {v : Option StakeNode} (hv : replayStakeNode p cr fuel b = .ok v) :
    Coherent p cr fuel (Function.update cache b v) := by
  intro c n hc
  by_cases hcb : c = b
  · subst hcb
    rw [Function.update_self] at hc
    rw [hv, hc]
  · rw [Function.update_of_ne hcb] at hc
    exact hcoh c n hc

/-- A cache that holds replayed nodes of some blocks, and nothing else, is coherent.
Source: none: specification
Kind: L -/
theorem coherent_of_replayed (loaded : StakeBlockIndex → Prop) [DecidablePred loaded] :
    Coherent p cr fuel fun b =>
      if loaded b then (replayStakeNode p cr fuel b).toOption.join else none := by
  intro b n hb
  dsimp only at hb
  by_cases hl : loaded b
  · rw [if_pos hl] at hb
    cases hr : replayStakeNode p cr fuel b with
    | error e => rw [hr] at hb; cases hb
    | ok o => rw [hr] at hb; cases hb; rfl
  · rw [if_neg hl] at hb
    cases hb

end replay

/-! ## Loaded parents -/

section loaded

/-- Every ancestor of a loaded block is loaded.
Source: none: specification
Kind: L -/
theorem ParentsLoaded.mem_ancestors {cache : StakeNodeCache} (hpl : ParentsLoaded cache)
    {b g : StakeBlockIndex} (hb : cache b ≠ none) (hg : g ∈ b.ancestors) : cache g ≠ none := by
  induction b with
  | root a =>
    simp only [ancestors_root, List.mem_singleton] at hg
    rwa [hg]
  | cons prev a ih =>
    simp only [ancestors_cons, List.mem_cons] at hg
    rcases hg with rfl | hg
    · exact hb
    · exact ih (hpl prev a hb) hg

/-- Loading a missing node on a loaded parent keeps the parents loaded.
Source: `src/validation.cpp` `FetchStakeNode`
Kind: L -/
theorem ParentsLoaded.update {cache : StakeNodeCache} (hpl : ParentsLoaded cache)
    {prev : StakeBlockIndex} {a : StakeFields} (hnode : cache (.cons prev a) = none)
    (hprev : cache prev ≠ none) (v : Option StakeNode) :
    ParentsLoaded (Function.update cache (.cons prev a) v) := by
  have hne : prev ≠ .cons prev a := fun h => by
    have hh := congrArg RootedChain.height h
    simp at hh
  intro q a' hq
  by_cases hqb : RootedChain.cons q a' = .cons prev a
  · -- the loaded entry itself: its parent was loaded before
    cases hqb
    rwa [Function.update_of_ne hne]
  · -- another entry: it was loaded before, so it is not the missing one
    rw [Function.update_of_ne hqb] at hq
    have hqne : q ≠ .cons prev a := by
      rintro rfl
      exact hpl _ _ hq hnode
    rw [Function.update_of_ne hqne]
    exact hpl q a' hq

end loaded

/-! ## The fork point -/

section fork

/-- Source: `src/chain.h` `CChain::Contains`. Kind: L -/
theorem chainContains_iff {tip b : StakeBlockIndex} :
    chainContains tip b = true ↔ b ∈ tip.ancestors := by
  rw [chainContains, decide_eq_true_iff, mem_ancestors_iff_ancestorAt]

/-- Source: `src/chain.cpp` `CChain::FindFork`. Kind: L -/
theorem findForkLoop_of_mem {tip b : StakeBlockIndex} (h : b ∈ tip.ancestors) :
    findForkLoop tip b = some b := by
  cases b with
  | root a => simp only [findForkLoop, chainContains_iff.mpr h, if_true]
  | cons prev a => simp only [findForkLoop, chainContains_iff.mpr h, if_true]

/-- The loop ends on an ancestor of its start that the active chain contains.
Source: `src/chain.cpp` `CChain::FindFork`
Kind: L -/
theorem findForkLoop_mem {tip f : StakeBlockIndex} :
    ∀ {b : StakeBlockIndex}, findForkLoop tip b = some f → f ∈ b.ancestors ∧ f ∈ tip.ancestors
  | .root a, h => by
    simp only [findForkLoop] at h
    split at h
    · cases h
      exact ⟨self_mem_ancestors _, chainContains_iff.mp ‹_›⟩
    · cases h
  | .cons prev a, h => by
    simp only [findForkLoop] at h
    split at h
    · cases h
      exact ⟨self_mem_ancestors _, chainContains_iff.mp ‹_›⟩
    · obtain ⟨hb, ht⟩ := findForkLoop_mem h
      exact ⟨List.mem_cons_of_mem _ hb, ht⟩

/-- A block of the active chain is its own fork point.
Source: `src/chain.cpp` `CChain::FindFork`
Kind: L -/
theorem findFork_of_mem {tip pindex : StakeBlockIndex} (h : pindex ∈ tip.ancestors) :
    findFork tip pindex = some pindex := by
  have hle := height_le_of_mem_ancestors h
  simp only [findFork, show ¬ pindex.height > tip.height by omega, if_false]
  exact findForkLoop_of_mem h

/-- The fork point is an ancestor of the block and of the tip.
Source: `src/chain.cpp` `CChain::FindFork`
Kind: L -/
theorem findFork_mem {tip pindex f : StakeBlockIndex} (h : findFork tip pindex = some f) :
    f ∈ pindex.ancestors ∧ f ∈ tip.ancestors := by
  simp only [findFork] at h
  split at h
  · obtain ⟨hf, ht⟩ := findForkLoop_mem h
    exact ⟨mem_ancestors_trans hf (walkBack_mem_ancestors _ _), ht⟩
  · exact findForkLoop_mem h

/-- The loop stops at an entry of the active chain once it meets a common ancestor.
Source: `src/chain.cpp` `CChain::FindFork`
Kind: L -/
theorem findForkLoop_ne_none {tip g : StakeBlockIndex} (hg : g ∈ tip.ancestors) :
    ∀ {b : StakeBlockIndex}, g ∈ b.ancestors → findForkLoop tip b ≠ none
  | .root a, hb => by
    simp only [ancestors_root, List.mem_singleton] at hb
    subst hb
    rw [findForkLoop_of_mem hg]
    exact Option.some_ne_none _
  | .cons prev a, hb => by
    by_cases hc : chainContains tip (.cons prev a) = true
    · rw [findForkLoop_of_mem (chainContains_iff.mp hc)]
      exact Option.some_ne_none _
    · have hne : g ≠ .cons prev a := by
        rintro rfl
        exact hc (chainContains_iff.mpr hg)
      rw [findForkLoop, if_neg hc]
      exact findForkLoop_ne_none hg (mem_ancestors_of_mem_cons hb hne)

/-- A block with an ancestor on the active chain has a fork point.
Source: `src/chain.cpp` `CChain::FindFork`
Kind: L -/
theorem findFork_ne_none {tip pindex g : StakeBlockIndex} (hg : g ∈ tip.ancestors)
    (hgp : g ∈ pindex.ancestors) : findFork tip pindex ≠ none := by
  simp only [findFork]
  split
  · -- lowering `pindex` to the tip's height keeps the common ancestor
    have hle := height_le_of_mem_ancestors hg
    refine findForkLoop_ne_none hg (mem_ancestors_of_height_le hgp (walkBack_mem_ancestors _ _) ?_)
    rw [height_walkBack]
    omega
  · exact findForkLoop_ne_none hg hgp

end fork

/-! ## The walk down from the tip -/

section disconnect

/-- The walk never loads a node: it skips each loaded parent and faults at a missing one.
Source: `src/validation.cpp` `FetchStakeNode` (the first loop)
Kind: L -/
theorem disconnectWalk_eq_ok {fork : Option StakeBlockIndex} :
    ∀ {it : StakeBlockIndex} {cache c : StakeNodeCache},
      disconnectWalk p cr fuel fork it cache = .ok c → c = cache
  | .root _, cache, c, h => by
    rw [disconnectWalk] at h
    exact (Except.ok.inj h).symm
  | .cons prev a, cache, c, h => by
    by_cases hfork : some (RootedChain.cons prev a) = fork
    · rw [disconnectWalk, if_pos hfork] at h
      exact (Except.ok.inj h).symm
    · by_cases hprev : (cache prev).isSome
      · rw [disconnectWalk, if_neg hfork, if_pos hprev] at h
        exact disconnectWalk_eq_ok h
      · -- a missing parent: the walk dereferences its node
        have hnone : cache prev = none := Option.not_isSome_iff_eq_none.mp hprev
        rw [disconnectWalk, if_neg hfork, if_neg hprev] at h
        obtain ⟨itNode, -, h⟩ := except_bind_eq_ok.mp h
        rw [hnone, deref_none, except_error_bind] at h
        cases h

/-- A walk to the fork point `f` stops at or above `f`.
Source: `src/validation.cpp` `FetchStakeNode` (the first loop)
Kind: L -/
theorem mem_ancestors_of_fork_eq {f : StakeBlockIndex} : ∀ g, some f = some g → g ∈ f.ancestors
  | _, rfl => self_mem_ancestors _

/-- The walk from `it` down to the fork faults when it meets a missing node `b` above the fork.
Source: `src/validation.cpp` `FetchStakeNode` (the first loop)
Kind: L -/
theorem disconnectWalk_of_missing {fork : Option StakeBlockIndex} {b : StakeBlockIndex}
    {cache : StakeNodeCache} (hfork : ∀ f, fork = some f → f ∈ b.ancestors)
    (hmiss : cache b = none) :
    ∀ {it : StakeBlockIndex}, b ∈ it.ancestors → b ≠ it →
      disconnectWalk p cr fuel fork it cache = .error .nullDeref
  | .root _, hb, hne => absurd (by simpa using hb) hne
  | .cons prev a, hb, hne => by
    -- the walk is still above `b`, so it has not reached the fork
    have hfork' : ¬ some (RootedChain.cons prev a) = fork := by
      intro h
      have hle := height_le_of_mem_ancestors (hfork _ h.symm)
      have hlt := height_lt_of_mem_ancestors hb hne
      omega
    have hbprev := mem_ancestors_of_mem_cons hb hne
    by_cases hprev : (cache prev).isSome
    · have hne' : b ≠ prev := by
        rintro rfl
        rw [hmiss] at hprev
        cases hprev
      rw [disconnectWalk, if_neg hfork', if_pos hprev]
      exact disconnectWalk_of_missing hfork hmiss hbprev hne'
    · have hnone : cache prev = none := Option.not_isSome_iff_eq_none.mp hprev
      rw [disconnectWalk, if_neg hfork', if_neg hprev, hnone]
      cases cache (.cons prev a) <;> rfl

/-- After a walk from a loaded tip that returned, every block from the tip down to the fork
is loaded.
Source: `src/validation.cpp` `FetchStakeNode` (the first loop)
Kind: L -/
theorem loaded_of_disconnectWalk_ok {fork : Option StakeBlockIndex} {tip f : StakeBlockIndex}
    {cache c : StakeNodeCache} (htip : cache tip ≠ none) (hf : f ∈ tip.ancestors)
    (hfork : ∀ g, fork = some g → g ∈ f.ancestors)
    (h : disconnectWalk p cr fuel fork tip cache = .ok c) : cache f ≠ none := by
  intro hmiss
  by_cases hft : f = tip
  · subst hft
    exact htip hmiss
  · rw [disconnectWalk_of_missing hfork hmiss hf hft] at h
    cases h

/-- From a tip whose ancestry is loaded the walk skips every parent and leaves the cache.
Source: `src/validation.cpp` `FetchStakeNode` (the first loop)
Kind: L -/
theorem disconnectWalk_of_loaded {fork : Option StakeBlockIndex} {cache : StakeNodeCache} :
    ∀ {it : StakeBlockIndex}, (∀ g ∈ it.ancestors, cache g ≠ none) →
      disconnectWalk p cr fuel fork it cache = .ok cache
  | .root _, _ => by rw [disconnectWalk]
  | .cons prev a, hl => by
    by_cases hfork : some (RootedChain.cons prev a) = fork
    · rw [disconnectWalk, if_pos hfork]
    · have hprev : (cache prev).isSome :=
        Option.isSome_iff_ne_none.mpr (hl prev (List.mem_cons_of_mem _ (self_mem_ancestors prev)))
      rw [disconnectWalk, if_neg hfork, if_pos hprev]
      exact disconnectWalk_of_loaded fun g hg => hl g (List.mem_cons_of_mem _ hg)

end disconnect

/-! ## The walk up the branch -/

section attach

/-- Source: `src/validation.cpp` `FetchStakeNode` (the second loop). Kind: L -/
theorem attachWalk_append (l₁ l₂ : List StakeBlockIndex) (cache : StakeNodeCache) :
    attachWalk p cr fuel (l₁ ++ l₂) cache =
      attachWalk p cr fuel l₁ cache >>= attachWalk p cr fuel l₂ := by
  induction l₁ generalizing cache with
  | nil => rfl
  | cons it rest ih =>
    simp only [List.cons_append, attachWalk]
    split
    · exact ih cache
    · simp only [bind_assoc, ih]

/-- One turn of the walk: a block whose parent holds its replayed node gets its own, and the
cache stays coherent.
Source: `src/validation.cpp` `FetchStakeNode` (the second loop)
Kind: L -/
theorem attachWalk_single {cache cache' : StakeNodeCache} {prev : StakeBlockIndex}
    {a : StakeFields} (hcoh : Coherent p cr fuel cache)
    (hprev : replayStakeNode p cr fuel prev = .ok (cache prev))
    (h : attachWalk p cr fuel [.cons prev a] cache = .ok cache') :
    Coherent p cr fuel cache' ∧
      replayStakeNode p cr fuel (.cons prev a) = .ok (cache' (.cons prev a)) := by
  by_cases hit : (cache (.cons prev a)).isSome
  · rw [attachWalk, if_pos hit, attachWalk] at h
    cases h
    exact ⟨hcoh, hcoh.replay_eq (Option.isSome_iff_ne_none.mp hit)⟩
  · rw [attachWalk, if_neg hit, parent?_cons, deref_some, except_ok_bind] at h
    obtain ⟨prevNode, hnode, h⟩ := except_bind_eq_ok.mp h
    obtain ⟨stakeNode, hconnect, h⟩ := except_bind_eq_ok.mp h
    rw [attachWalk] at h
    cases h
    have hreplay : replayStakeNode p cr fuel (.cons prev a) = .ok stakeNode := by
      rw [replayStakeNode_of_parent (hprev.trans (by rw [deref_eq_ok.mp hnode]))]
      exact hconnect
    refine ⟨hcoh.update hreplay, ?_⟩
    rw [Function.update_self]
    exact hreplay

/-- The walk up the branch from a loaded fork point loads the replayed node of every block on
it, up to `pindex`, and keeps the cache coherent.
Source: `src/validation.cpp` `FetchStakeNode` (the second loop)
Kind: L -/
theorem attachWalk_attachNodes {fork : StakeBlockIndex} {cache : StakeNodeCache}
    (hcoh : Coherent p cr fuel cache) (hfork : cache fork ≠ none) :
    ∀ {pindex : StakeBlockIndex} {cache' : StakeNodeCache}, fork ∈ pindex.ancestors →
      attachWalk p cr fuel (attachNodes fork pindex) cache = .ok cache' →
        Coherent p cr fuel cache' ∧ replayStakeNode p cr fuel pindex = .ok (cache' pindex)
  | .root a, cache', hmem, h => by
    simp only [ancestors_root, List.mem_singleton] at hmem
    subst hmem
    rw [attachNodes, above_self, attachWalk] at h
    cases h
    exact ⟨hcoh, hcoh.replay_eq hfork⟩
  | .cons prev a, cache', hmem, h => by
    by_cases heq : RootedChain.cons prev a = fork
    · subst heq
      rw [attachNodes, above_self, attachWalk] at h
      cases h
      exact ⟨hcoh, hcoh.replay_eq hfork⟩
    · -- the walk up to the parent, then one more turn
      rw [attachNodes, above_cons_of_ne heq, attachWalk_append] at h
      obtain ⟨c₁, h₁, h₂⟩ := except_bind_eq_ok.mp h
      obtain ⟨hcoh₁, hprev⟩ :=
        attachWalk_attachNodes hcoh hfork (mem_ancestors_of_mem_cons hmem (Ne.symm heq)) h₁
      exact attachWalk_single hcoh₁ hprev h₂

/-- A turn of the walk at a missing node connects it from its parent's node.
Source: `src/validation.cpp` `FetchStakeNode` (the second loop)
Kind: L -/
theorem attachWalk_cons_missing {prev : StakeBlockIndex} {a : StakeFields}
    {rest : List StakeBlockIndex} {cache : StakeNodeCache} (hnode : cache (.cons prev a) = none) :
    attachWalk p cr fuel (.cons prev a :: rest) cache =
      deref (cache prev) >>= fun prevNode => connectBlockStake p cr fuel (.cons prev a) prevNode >>=
        fun stakeNode => attachWalk p cr fuel rest (Function.update cache (.cons prev a) stakeNode) := by
  rw [attachWalk, if_neg (by simp [hnode]), parent?_cons, deref_some, except_ok_bind]

/-- The walk loads a node only on a loaded parent, so it keeps the parents loaded.
Source: `src/validation.cpp` `FetchStakeNode` (the second loop)
Kind: L -/
theorem attachWalk_parentsLoaded :
    ∀ {l : List StakeBlockIndex} {cache cache' : StakeNodeCache}, ParentsLoaded cache →
      attachWalk p cr fuel l cache = .ok cache' → ParentsLoaded cache'
  | [], cache, cache', hpl, h => by
    rw [attachWalk] at h
    cases h
    exact hpl
  | it :: rest, cache, cache', hpl, h => by
    by_cases hit : (cache it).isSome
    · rw [attachWalk, if_pos hit] at h
      exact attachWalk_parentsLoaded hpl h
    · have hnode := Option.not_isSome_iff_eq_none.mp hit
      cases it with
      | root a => simp [attachWalk, hnode, RootedChain.parent?] at h
      | cons prev a =>
        rw [attachWalk_cons_missing hnode] at h
        obtain ⟨prevNode, hn, h⟩ := except_bind_eq_ok.mp h
        obtain ⟨stakeNode, -, h⟩ := except_bind_eq_ok.mp h
        have hprev : cache prev ≠ none := by
          rw [deref_eq_ok.mp hn]
          exact Option.some_ne_none _
        exact attachWalk_parentsLoaded (hpl.update hnode hprev stakeNode) h

/-- One turn of the walk gives the block's replayed node, or fails as the replay does.
Source: `src/validation.cpp` `FetchStakeNode` (the second loop)
Kind: L -/
theorem attachWalk_single_map {cache : StakeNodeCache} {prev : StakeBlockIndex}
    {a : StakeFields} (hcoh : Coherent p cr fuel cache)
    (hprev : replayStakeNode p cr fuel prev = .ok (cache prev)) :
    (attachWalk p cr fuel [.cons prev a] cache).map (· (.cons prev a)) =
      replayStakeNode p cr fuel (.cons prev a) := by
  by_cases hit : (cache (.cons prev a)).isSome
  · rw [attachWalk, if_pos hit, attachWalk, except_map_ok]
    exact (hcoh.replay_eq (Option.isSome_iff_ne_none.mp hit)).symm
  · -- both dereference the parent's node and connect the block from it
    rw [attachWalk_cons_missing (Option.not_isSome_iff_eq_none.mp hit), replayStakeNode, hprev,
      except_ok_bind]
    cases cache prev with
    | none => rfl
    | some n =>
      simp only [deref_some, except_ok_bind]
      cases connectBlockStake p cr fuel (.cons prev a) n with
      | error e => rfl
      | ok v => simp [attachWalk]

/-- **The walk up the branch from a loaded fork point of a coherent cache gives the replayed node
of `pindex`, or fails as the replay does.**
Source: `src/validation.cpp` `FetchStakeNode` (the second loop)
Kind: L -/
theorem attachWalk_attachNodes_map {fork : StakeBlockIndex} {cache : StakeNodeCache}
    (hcoh : Coherent p cr fuel cache) (hfork : cache fork ≠ none) :
    ∀ {pindex : StakeBlockIndex}, fork ∈ pindex.ancestors →
      (attachWalk p cr fuel (attachNodes fork pindex) cache).map (· pindex) =
        replayStakeNode p cr fuel pindex
  | .root a, hmem => by
    simp only [ancestors_root, List.mem_singleton] at hmem
    subst hmem
    rw [attachNodes, above_self, attachWalk, except_map_ok]
    exact (hcoh.replay_eq hfork).symm
  | .cons prev a, hmem => by
    by_cases heq : RootedChain.cons prev a = fork
    · subst heq
      rw [attachNodes, above_self, attachWalk, except_map_ok]
      exact (hcoh.replay_eq hfork).symm
    · -- the walk up to the parent, then one more turn
      have hmem' := mem_ancestors_of_mem_cons hmem (Ne.symm heq)
      have hsplit : attachNodes fork (.cons prev a) = attachNodes fork prev ++ [.cons prev a] :=
        above_cons_of_ne heq
      rw [hsplit, attachWalk_append]
      rcases h₁ : attachWalk p cr fuel (attachNodes fork prev) cache with e | c₁
      · -- the walk failed below the block, and so did the replay of its parent
        have ih := attachWalk_attachNodes_map hcoh hfork hmem'
        rw [h₁] at ih
        rw [replayStakeNode, ← ih]
        rfl
      · obtain ⟨hcoh₁, hprev⟩ := attachWalk_attachNodes hcoh hfork hmem' h₁
        rw [except_ok_bind]
        exact attachWalk_single_map hcoh₁ hprev

end attach

/-! ## `FetchStakeNode` -/

section fetch

/-- With the parent's node loaded, `FetchStakeNode` connects the block's node from it and loads
the result.
Source: `src/validation.cpp` `FetchStakeNode`
Kind: L -/
theorem fetchStakeNode_of_parent_node {tip prev : StakeBlockIndex} {a : StakeFields}
    {cache : StakeNodeCache} {n : StakeNode} (hnode : cache (.cons prev a) = none)
    (hprev : cache prev = some n) :
    fetchStakeNode p cr fuel tip (.cons prev a) cache =
      (connectBlockStake p cr fuel (.cons prev a) n).map
        fun r => (r, Function.update cache (.cons prev a) r) := by
  simp only [fetchStakeNode, hnode, parent?_cons, deref_some, except_ok_bind, hprev]
  cases connectBlockStake p cr fuel (.cons prev a) n <;> rfl

/-- On a coherent cache where the parent's node is loaded, `FetchStakeNode` is the replay: it
returns the block's replayed node, or fails as the replay does, and loads what it returns.
Source: `src/validation.cpp` `FetchStakeNode`
Kind: P -/
theorem fetchStakeNode_of_parent_loaded {tip prev : StakeBlockIndex} {a : StakeFields}
    {cache : StakeNodeCache} (hcoh : Coherent p cr fuel cache)
    (hnode : cache (.cons prev a) = none) (hprev : cache prev ≠ none) :
    fetchStakeNode p cr fuel tip (.cons prev a) cache =
      (replayStakeNode p cr fuel (.cons prev a)).map
        fun r => (r, Function.update cache (.cons prev a) r) := by
  obtain ⟨n, hn⟩ := Option.ne_none_iff_exists'.mp hprev
  rw [fetchStakeNode_of_parent_node hnode hn, replayStakeNode_of_parent (hcoh prev n hn)]

/-- On a coherent cache with the tip loaded, whatever `FetchStakeNode` returns is the block's
replayed node, and the cache it leaves is coherent.
Source: `src/validation.cpp` `FetchStakeNode`
Kind: P -/
theorem fetchStakeNode_returns_replayed {tip pindex : StakeBlockIndex}
    {cache cache' : StakeNodeCache} {r : Option StakeNode} (hcoh : Coherent p cr fuel cache)
    (htip : cache tip ≠ none) (h : fetchStakeNode p cr fuel tip pindex cache = .ok (r, cache')) :
    replayStakeNode p cr fuel pindex = .ok r ∧ Coherent p cr fuel cache' := by
  rcases hnode : cache pindex with _ | n
  case some =>
    -- the cached node
    simp only [fetchStakeNode, hnode] at h
    cases h
    exact ⟨hcoh pindex n hnode, hcoh⟩
  case none =>
  cases pindex with
  | root a => simp [fetchStakeNode, hnode, RootedChain.parent?] at h
  | cons prev a =>
    by_cases hprev : cache prev = none
    case neg =>
      -- the fast path
      rw [fetchStakeNode_of_parent_loaded hcoh hnode hprev] at h
      obtain ⟨v, hreplay, hv⟩ := except_map_eq_ok.mp h
      obtain ⟨rfl, rfl⟩ := Prod.mk.inj hv
      exact ⟨hreplay, hcoh.update hreplay⟩
    case pos =>
    -- the walk down from the tip, which leaves the cache as it is
    simp only [fetchStakeNode, hnode, parent?_cons, deref_some, except_ok_bind, hprev] at h
    obtain ⟨c, hwalk, hrest⟩ := except_bind_eq_ok.mp h
    rw [disconnectWalk_eq_ok hwalk] at hrest
    by_cases hfk : some (RootedChain.cons prev a) = findFork tip (.cons prev a)
    · -- the block is its own fork point, so the walk passed over its missing node
      have hmem := (findFork_mem hfk.symm).2
      rw [← hfk] at hwalk
      exact absurd hnode (loaded_of_disconnectWalk_ok htip hmem mem_ancestors_of_fork_eq hwalk)
    · rw [if_neg hfk] at hrest
      obtain ⟨f, hf, hrest⟩ := except_bind_eq_ok.mp hrest
      obtain ⟨c', hattach, hrest⟩ := except_bind_eq_ok.mp hrest
      cases hrest
      have hfork := findFork_mem (deref_eq_ok.mp hf)
      rw [deref_eq_ok.mp hf] at hwalk
      have hloaded := loaded_of_disconnectWalk_ok htip hfork.2 mem_ancestors_of_fork_eq hwalk
      obtain ⟨hcoh', hreplay⟩ := attachWalk_attachNodes hcoh hloaded hfork.1 hattach
      exact ⟨hreplay, hcoh'⟩

/-- A block two above genesis on a side branch, with the genesis node and the tip's loaded:
the walk down skips the loaded genesis node, and the walk up rebuilds the branch.
Source: `src/validation.cpp` `FetchStakeNode`
Kind: W -/
theorem fetchStakeNode_returns_replayed_side_branch :
    let cr : Crypto := ⟨fun _ => Uint256.zero, fun _ => Uint256.zero⟩
    let g : StakeBlockIndex := .root ⟨Uint256.zero, [], [], []⟩
    let b₁ : StakeBlockIndex := .cons g ⟨Uint256.ofNat 1, [], [], []⟩
    let s₁ : StakeBlockIndex := .cons g ⟨Uint256.ofNat 4, [], [], []⟩
    let s₂ : StakeBlockIndex := .cons s₁ ⟨Uint256.ofNat 5, [], [], []⟩
    let cache : StakeNodeCache := fun b =>
      if b = g ∨ b = b₁ then (replayStakeNode main cr 0 b).toOption.join else none
    Coherent main cr 0 cache ∧ cache b₁ ≠ none ∧
      ∃ r cache', fetchStakeNode main cr 0 b₁ s₂ cache = .ok (r, cache') ∧
        replayStakeNode main cr 0 s₂ = .ok r ∧ Coherent main cr 0 cache' := by
  intro cr g b₁ s₁ s₂ cache
  have hcoh : Coherent main cr 0 cache := coherent_of_replayed _
  have htip : cache b₁ ≠ none := Option.isSome_iff_ne_none.mp (by decide)
  obtain ⟨r, cache', h⟩ : ∃ r cache', fetchStakeNode main cr 0 b₁ s₂ cache = .ok (r, cache') :=
    ⟨_, _, rfl⟩
  exact ⟨hcoh, htip, r, cache', h, fetchStakeNode_returns_replayed hcoh htip h⟩

/-- With the tip's ancestry loaded, the fork point of a block off the tip's ancestry is loaded
and `FetchStakeNode` is the walk up from it.
Source: `src/validation.cpp` `FetchStakeNode`
Kind: L -/
theorem fetchStakeNode_of_tip_loaded {tip prev f : StakeBlockIndex} {a : StakeFields}
    {cache : StakeNodeCache} (hanc : ∀ b ∈ tip.ancestors, cache b ≠ none)
    (hnode : cache (.cons prev a) = none) (hprev : cache prev = none)
    (hf : findFork tip (.cons prev a) = some f) :
    fetchStakeNode p cr fuel tip (.cons prev a) cache =
      (attachWalk p cr fuel (attachNodes f (.cons prev a)) cache).map
        fun c => (c (.cons prev a), c) := by
  -- the block is not its fork point: the fork point is on the tip's ancestry, so loaded
  have hfne : some (RootedChain.cons prev a) ≠ some f := by
    rintro ⟨⟩
    exact hanc _ (findFork_mem hf).2 hnode
  simp only [fetchStakeNode, hnode, parent?_cons, deref_some, except_ok_bind, hprev,
    disconnectWalk_of_loaded hanc, hf, hfne, if_false]
  cases attachWalk p cr fuel (attachNodes f (.cons prev a)) cache <;> rfl

/-- **`FetchStakeNode` is the replay**: on a coherent cache whose loaded nodes sit on loaded
parents, with the tip loaded, `FetchStakeNode` of any block that shares an ancestor with the tip
returns the block's replayed node, or fails as the replay does, and what it leaves is again
coherent with loaded parents.
Source: `src/validation.cpp` `FetchStakeNode`, `ConnectBlock`, `AcceptBlock`, `LoadBlockIndexDB`
Kind: P -/
theorem fetchStakeNode_eq_replay {tip pindex g : StakeBlockIndex} {cache : StakeNodeCache}
    (hcoh : Coherent p cr fuel cache) (hpl : ParentsLoaded cache) (htip : cache tip ≠ none)
    (hg : g ∈ tip.ancestors) (hgp : g ∈ pindex.ancestors) :
    (fetchStakeNode p cr fuel tip pindex cache).map Prod.fst = replayStakeNode p cr fuel pindex ∧
      ∀ r cache', fetchStakeNode p cr fuel tip pindex cache = .ok (r, cache') →
        Coherent p cr fuel cache' ∧ ParentsLoaded cache' := by
  have hanc : ∀ b ∈ tip.ancestors, cache b ≠ none := fun b hb => hpl.mem_ancestors htip hb
  rcases hnode : cache pindex with _ | n
  case some =>
    -- the cached node
    simp only [fetchStakeNode, hnode, except_map_ok, Except.ok.injEq, Prod.mk.injEq]
    exact ⟨(hcoh pindex n hnode).symm, fun r cache' h => h.2 ▸ ⟨hcoh, hpl⟩⟩
  case none =>
  cases pindex with
  | root a =>
    -- a genesis entry shared with the tip is loaded
    simp only [ancestors_root, List.mem_singleton] at hgp
    subst hgp
    exact absurd hnode (hanc _ hg)
  | cons prev a =>
    by_cases hprev : cache prev = none
    case neg =>
      -- the fast path
      rw [fetchStakeNode_of_parent_loaded hcoh hnode hprev]
      refine ⟨by cases replayStakeNode p cr fuel (.cons prev a) <;> rfl, fun r cache' h => ?_⟩
      obtain ⟨v, hreplay, hv⟩ := except_map_eq_ok.mp h
      obtain ⟨rfl, rfl⟩ := Prod.mk.inj hv
      exact ⟨hcoh.update hreplay, hpl.update hnode hprev v⟩
    case pos =>
    -- the walk down from the tip skips its loaded ancestry, and the walk up starts at the fork
    obtain ⟨f, hf⟩ := Option.ne_none_iff_exists'.mp (findFork_ne_none hg hgp)
    have hfmem := findFork_mem hf
    rw [fetchStakeNode_of_tip_loaded hanc hnode hprev hf]
    refine ⟨?_, fun r cache' h => ?_⟩
    · rw [← attachWalk_attachNodes_map hcoh (hanc f hfmem.2) hfmem.1]
      cases attachWalk p cr fuel (attachNodes f (.cons prev a)) cache <;> rfl
    · obtain ⟨c, hc, hrc⟩ := except_map_eq_ok.mp h
      obtain ⟨rfl, rfl⟩ := Prod.mk.inj hrc
      exact ⟨(attachWalk_attachNodes hcoh (hanc f hfmem.2) hfmem.1 hc).1,
        attachWalk_parentsLoaded hpl hc⟩

/-- A cache that holds the replayed nodes of the blocks of an ancestry has loaded parents.
Source: none: specification
Kind: L -/
theorem parentsLoaded_of_ancestors (tip : StakeBlockIndex)
    (hok : ∀ b ∈ tip.ancestors, (replayStakeNode p cr fuel b).toOption.join ≠ none) :
    ParentsLoaded fun b =>
      if b ∈ tip.ancestors then (replayStakeNode p cr fuel b).toOption.join else none := by
  intro prev a h
  have hmem : RootedChain.cons prev a ∈ tip.ancestors := by
    by_contra hn
    exact h (if_neg hn)
  have hprev := mem_ancestors_trans (List.mem_cons_of_mem _ (self_mem_ancestors prev)) hmem
  simp only [if_pos hprev]
  exact hok prev hprev

/-- On main, with the genesis block and the tip of a chain of two blocks loaded, fetching the
second block of a side branch walks up the branch and gives its replayed node.
Source: `src/validation.cpp` `FetchStakeNode`
Kind: W -/
theorem fetchStakeNode_eq_replay_side_branch :
    let cr : Crypto := ⟨fun _ => Uint256.zero, fun _ => Uint256.zero⟩
    let g : StakeBlockIndex := .root ⟨Uint256.zero, [], [], []⟩
    let b₁ : StakeBlockIndex := .cons g ⟨Uint256.ofNat 1, [], [], []⟩
    let s₁ : StakeBlockIndex := .cons g ⟨Uint256.ofNat 4, [], [], []⟩
    let s₂ : StakeBlockIndex := .cons s₁ ⟨Uint256.ofNat 5, [], [], []⟩
    let cache : StakeNodeCache := fun b =>
      if b ∈ b₁.ancestors then (replayStakeNode main cr 0 b).toOption.join else none
    Coherent main cr 0 cache ∧ ParentsLoaded cache ∧ cache b₁ ≠ none ∧ g ∈ b₁.ancestors ∧
      g ∈ s₂.ancestors ∧
      ((fetchStakeNode main cr 0 b₁ s₂ cache).map Prod.fst = replayStakeNode main cr 0 s₂ ∧
        ∀ r cache', fetchStakeNode main cr 0 b₁ s₂ cache = .ok (r, cache') →
          Coherent main cr 0 cache' ∧ ParentsLoaded cache') := by
  intro cr g b₁ s₁ s₂ cache
  have hok : ∀ b ∈ b₁.ancestors, (replayStakeNode main cr 0 b).toOption.join ≠ none := by
    intro b hb
    simp only [b₁, g, ancestors_cons, ancestors_root, List.mem_cons,
      List.not_mem_nil, or_false] at hb
    rcases hb with rfl | rfl <;> exact Option.isSome_iff_ne_none.mp (by decide)
  have hcoh : Coherent main cr 0 cache := coherent_of_replayed _
  have hpl : ParentsLoaded cache := parentsLoaded_of_ancestors b₁ hok
  have htip : cache b₁ ≠ none := Option.isSome_iff_ne_none.mp (by decide)
  have hg : g ∈ b₁.ancestors := by decide
  have hgs : g ∈ s₂.ancestors := by decide
  exact ⟨hcoh, hpl, htip, hg, hgs, fetchStakeNode_eq_replay hcoh hpl htip hg hgs⟩

/-- A block of the active chain below the tip whose node and whose parent's node are missing
makes `FetchStakeNode` dereference a null node: the walk down from the tip skips loaded parents,
and reaches the block as the missing parent of its child.
Source: `src/validation.cpp` `FetchStakeNode`
Kind: P -/
theorem fetchStakeNode_faults_on_active_chain {tip prev : StakeBlockIndex} {a : StakeFields}
    {cache : StakeNodeCache} (hmem : RootedChain.cons prev a ∈ tip.ancestors)
    (hne : RootedChain.cons prev a ≠ tip) (hnode : cache (.cons prev a) = none)
    (hprev : cache prev = none) :
    fetchStakeNode p cr fuel tip (.cons prev a) cache = .error .nullDeref := by
  simp only [fetchStakeNode, hnode, parent?_cons, deref_some, except_ok_bind, hprev]
  rw [findFork_of_mem hmem, disconnectWalk_of_missing mem_ancestors_of_fork_eq hnode hmem hne]
  rfl

end fetch

/-! ## The vector of the active chain -/

section vector

open Chain

variable {c : CChain StakeFields} {tip : StakeBlockIndex}

/-- Source: `src/chain.h` `CChain::Contains`. Kind: L -/
theorem contains_eq_chainContains (hc : c.vChain = tipSlots (some tip)) (b : StakeBlockIndex) :
    c.contains b = chainContains tip b := by
  rw [Bool.eq_iff_iff, contains_of_tipSlots hc, chainContains_iff]

/-- Source: `src/chain.cpp` `CChain::FindFork`. Kind: L -/
theorem findForkLoop_of_tipSlots (hc : c.vChain = tipSlots (some tip)) :
    ∀ q : StakeBlockIndex, c.findForkLoop q = findForkLoop tip q := by
  intro q
  induction q with
  | root a => rw [CChain.findForkLoop, findForkLoop, contains_eq_chainContains hc]
  | cons prev a ih => rw [CChain.findForkLoop, findForkLoop, contains_eq_chainContains hc, ih]

/-- **`FindFork` on the vector is the model's fork point**: on the vector of the tip, with valid
skip pointers, `CChain::FindFork` returns `findFork tip pindex`.
Source: `src/chain.cpp` `CChain::FindFork`
Kind: L -/
theorem findFork_of_tipSlots {pskip : SkipPointers StakeFields} (hc : c.vChain = tipSlots (some tip))
    (hv : ∀ b, SkipValid pskip b) (pindex : StakeBlockIndex) :
    c.findFork pskip (some pindex) = .ok (findFork tip pindex) := by
  simp only [CChain.findFork, CChain.lowerToHeight, height_of_tipSlots hc, findFork]
  by_cases hgt : pindex.height > tip.height
  · -- lowered by `GetAncestor(Height())`, the `walkBack` of the model
    rw [if_pos (by exact_mod_cast hgt), if_pos hgt, getAncestorSkip_eq (fun b _ => hv b),
      ancestorOrNull_natCast, RootedChain.ancestorAt, if_pos (by omega), except_map_ok,
      Option.bind_some, findForkLoop_of_tipSlots hc]
  · rw [if_neg (by exact_mod_cast hgt), if_neg hgt, except_map_ok, Option.bind_some,
      findForkLoop_of_tipSlots hc]

end vector

end BwsCoin.Stake
