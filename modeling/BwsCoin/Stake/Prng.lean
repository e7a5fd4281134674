import Mathlib
import BwsCoin.Basic

/-!
# The lottery's pseudorandom generator

`Hash256PRNG` (`src/stake/hash256prng.cpp`) draws 32-bit words from a chain of SHAKE-256
hashes: the words of the cached hash one after another, then the hash of the seed and a
counter, re-seeding when the counter passes `2^32 - 1`. `UniformRandom` rejects the words
below `2^32 mod upperBound` and reduces the rest; `FindTicketIdxs` draws until it holds `n`
distinct indices.

The hash functions are outside the model: `Crypto` holds them as functions of the bytes
written. The two rejection loops of the source run until they succeed, which depends on the
hash; the model runs each for at most `fuel` turns and reports `Fault.diverge` past that.

* `findTicketIdxs_spec` — what the lottery returns: `n` distinct indices below `size`;
* `lottery_draws_unbiased` — the rejection threshold of `UniformRandom` is `2^32 mod upperBound`
  in both of its `uint32_t` formulas, so the accepted words fall into the residues below
  `upperBound` equally often.
-/

namespace BwsCoin.Stake

/-- The hash functions the stake code calls, as functions of the bytes written to them.
Source: `src/stake/hasher.cpp` `Hasher` (SHAKE-256 with a 32-byte output),
`src/hash.h` `Hash` (double SHA-256)
Kind: D
Fidelity: abstract (the hash functions are parameters) -/
structure Crypto where
  /-- `Hasher()`, the `Write`s, then `Finalize()`. -/
  hasher : List UInt8 → Uint256
  /-- `Hash(begin, end)` of the bytes from `begin` to `end`. -/
  hash : List UInt8 → Uint256

/-- The bytes `Hasher::Write(bswap_32(x))` writes on a little-endian machine: those of `x`,
most significant first.
Source: `src/stake/hasher.cpp` `Hasher::Write(uint32_t)`
Kind: D -/
def be32 (x : UInt32) : List UInt8 :=
  [(x >>> 24).toUInt8, (x >>> 16).toUInt8, (x >>> 8).toUInt8, x.toUInt8]

/-- The generator's state. `hashIdx_` is a `uint32_t` that the source resets when it passes
`7`, so it is an index into the eight words of `lastHash_`.
Source: `src/stake/hash256prng.h` `Hash256PRNG`
Kind: D
Fidelity: exact -/
structure Hash256PRNG where
  /-- `seed_`. -/
  seed : Uint256
  /-- `hashIdx_`, the next word of `lastHash_`. -/
  hashIdx : Fin 8
  /-- `idx_`, the position in the hash chain. -/
  idx : UInt64
  /-- `lastHash_`, the cached hash. -/
  lastHash : Uint256

namespace Hash256PRNG

/-- `Hash256PRNG(iv)`.
Source: `src/stake/hash256prng.cpp` `Hash256PRNG::Hash256PRNG(const uint256&)`
Kind: D -/
def init (iv : Uint256) : Hash256PRNG := ⟨iv, 0, 0, iv⟩

variable (cr : Crypto)

/-- `Hash256Rand`: the current word, then the index advances; past the eighth word the next
hash of the chain is cached, and past `2^32 - 1` hashes the seed is re-hashed.
Source: `src/stake/hash256prng.cpp` `Hash256PRNG::Hash256Rand`
Kind: D
Fidelity: exact -/
def hash256Rand (s : Hash256PRNG) : UInt32 × Hash256PRNG :=
  let rand := s.lastHash.word s.hashIdx
  let s :=
    if h : s.hashIdx.val < 7 then { s with hashIdx := ⟨s.hashIdx.val + 1, by omega⟩ }
    else
      { s with
        lastHash := cr.hasher (s.seed.bytes ++ be32 s.idx.toUInt32)
        idx := s.idx + 1
        hashIdx := 0 }
  let s :=
    if s.idx > (0xFFFFFFFF : UInt64) then
      let seed := cr.hasher s.seed.bytes
      { s with seed := seed, lastHash := seed, idx := 0 }
    else s
  (rand, s)

/-- `StateHash`: the hash of the cached hash, the chain position and the word index.
Source: `src/stake/hash256prng.cpp` `Hash256PRNG::StateHash`
Kind: D
Fidelity: exact -/
def stateHash (s : Hash256PRNG) : Uint256 :=
  cr.hasher (s.lastHash.bytes ++ be32 s.idx.toUInt32 ++ [UInt8.ofNat s.hashIdx.val])

/-- The `do … while (rand < min)` loop of `UniformRandom`, for at most `fuel` draws.
Source: `src/stake/hash256prng.cpp` `Hash256PRNG::UniformRandom`
Kind: D
Fidelity: bounded (`fuel` draws) -/
def uniformRandomLoop (min upperBound : UInt32) : Nat → Hash256PRNG → Except Fault (UInt32 × Hash256PRNG)
  | 0, _ => .error .diverge
  | fuel + 1, s =>
    let (rand, s) := hash256Rand cr s
    if rand < min then uniformRandomLoop min upperBound fuel s else .ok (rand % upperBound, s)

/-- `UniformRandom(upperBound)`: `0` below `2`; otherwise the first draw at least
`2^32 mod upperBound`, reduced mod `upperBound` (the source computes that bound in `uint32_t`
arithmetic in two ways depending on `upperBound > 2^31`).
Source: `src/stake/hash256prng.cpp` `Hash256PRNG::UniformRandom`
Kind: D
Fidelity: bounded (`fuel` draws) -/
def uniformRandom (fuel : Nat) (upperBound : UInt32) (s : Hash256PRNG) :
    Except Fault (UInt32 × Hash256PRNG) :=
  if upperBound < 2 then .ok (0, s)
  else
    let min : UInt32 :=
      if upperBound > 0x80000000 then 1 + ~~~upperBound
      else ((0xFFFFFFFF - upperBound * 2) + 1) % upperBound
    uniformRandomLoop cr min upperBound fuel s

/-- `min`, the rejection threshold of `UniformRandom`, in the source's `uint32_t` arithmetic.
Source: `src/stake/hash256prng.cpp` `Hash256PRNG::UniformRandom`
Kind: D -/
def uniformRandomMin (upperBound : UInt32) : UInt32 :=
  if upperBound > 0x80000000 then 1 + ~~~upperBound
  else ((0xFFFFFFFF - upperBound * 2) + 1) % upperBound

/-- The loop of `uniformRandom` as the source writes it: below `2` the draw is `0`, otherwise draws
are refused below the threshold.
Source: `src/stake/hash256prng.cpp` `Hash256PRNG::uniformRandom`
Kind: L -/
theorem uniformRandom_eq (fuel : Nat) (upperBound : UInt32) (s : Hash256PRNG) :
    uniformRandom cr fuel upperBound s =
      if upperBound < 2 then .ok (0, s)
      else uniformRandomLoop cr (uniformRandomMin upperBound) upperBound fuel s := rfl

/-- The `while (list.size() < n)` loop of `FindTicketIdxs`, for at most `turns` turns: draw an
index below `size` and keep it when it is new.
Source: `src/stake/hash256prng.cpp` `Hash256PRNG::FindTicketIdxs`
Kind: D
Fidelity: bounded (`turns` turns) -/
def findTicketIdxsLoop (fuel : Nat) (size n : UInt32) :
    Nat → List UInt32 → Hash256PRNG → Except Fault (List UInt32 × Hash256PRNG)
  | 0, list, s => if list.length < n.toNat then .error .diverge else .ok (list, s)
  | turns + 1, list, s =>
    if list.length < n.toNat then do
      let (rand, s) ← uniformRandom cr fuel size s
      findTicketIdxsLoop fuel size n turns (if rand ∈ list then list else list ++ [rand]) s
    else .ok (list, s)

/-- `FindTicketIdxs(size, n)`: `n` distinct indices below `size`, after `assert(size >= n)`.
Both loops run for at most `fuel` turns.
Source: `src/stake/hash256prng.cpp` `Hash256PRNG::FindTicketIdxs`
Kind: D
Fidelity: bounded (`fuel` turns of each loop) -/
def findTicketIdxs (fuel : Nat) (size n : UInt32) (s : Hash256PRNG) :
    Except Fault (List UInt32 × Hash256PRNG) :=
  if size ≥ n then findTicketIdxsLoop cr fuel size n fuel [] s
  else .error (.abort "size >= n")

/-! ## What the lottery returns -/

/-- Every draw the rejection loop accepts is reduced below `upperBound`.
Source: `src/stake/hash256prng.cpp` `Hash256PRNG::UniformRandom`
Kind: L -/
theorem uniformRandomLoop_lt {min upperBound rand : UInt32} {s' : Hash256PRNG} (hpos : 0 < upperBound)
    (fuel : Nat) (s : Hash256PRNG) (h : uniformRandomLoop cr min upperBound fuel s = .ok (rand, s')) :
    rand < upperBound := by
  induction fuel generalizing s with
  | zero => simp [uniformRandomLoop] at h
  | succ fuel ih =>
    simp only [uniformRandomLoop] at h
    split_ifs at h with hmin
    · exact ih _ h
    · cases h
      rw [UInt32.lt_iff_toNat_lt, UInt32.toNat_mod]
      exact Nat.mod_lt _ (UInt32.lt_iff_toNat_lt.1 hpos)

/-- A draw of `UniformRandom` lies below a bound of at least one.
Source: `src/stake/hash256prng.cpp` `Hash256PRNG::UniformRandom`
Kind: L -/
theorem uniformRandom_lt {fuel : Nat} {upperBound rand : UInt32} {s s' : Hash256PRNG}
    (hpos : 0 < upperBound) (h : uniformRandom cr fuel upperBound s = .ok (rand, s')) :
    rand < upperBound := by
  unfold uniformRandom at h
  by_cases hsmall : upperBound < 2
  · -- `upperBound` is `1` and the draw is `0`
    rw [if_pos hsmall] at h
    cases h
    exact hpos
  · rw [if_neg hsmall] at h
    exact uniformRandomLoop_lt cr hpos fuel s h

/-- The loop keeps its list free of repeats, below `size` and no longer than `n`, and returns
exactly `n` indices.
Source: `src/stake/hash256prng.cpp` `Hash256PRNG::FindTicketIdxs`
Kind: L -/
theorem findTicketIdxsLoop_spec {fuel turns : Nat} {size n : UInt32} {list idxs : List UInt32}
    {s s' : Hash256PRNG} (hpos : 0 < size) (hnd : list.Nodup) (hlt : ∀ i ∈ list, i < size)
    (hle : list.length ≤ n.toNat)
    (h : findTicketIdxsLoop cr fuel size n turns list s = .ok (idxs, s')) :
    idxs.Nodup ∧ (∀ i ∈ idxs, i < size) ∧ idxs.length = n.toNat := by
  induction turns generalizing list s with
  | zero =>
    simp only [findTicketIdxsLoop] at h
    split_ifs at h with hn
    cases h
    exact ⟨hnd, hlt, by omega⟩
  | succ turns ih =>
    simp only [findTicketIdxsLoop] at h
    split_ifs at h with hn
    · obtain ⟨⟨rand, s₁⟩, hdraw, hrest⟩ := except_bind_eq_ok.1 h
      have hrand : rand < size := uniformRandom_lt cr hpos hdraw
      -- the drawn index is kept only when it is new
      by_cases hmem : rand ∈ list
      · simp only [hmem, if_true] at hrest
        exact ih hnd hlt hle hrest
      · simp only [hmem, if_false] at hrest
        refine ih (List.nodup_append.2 ⟨hnd, by simp, fun a ha b hb => ?_⟩) ?_ ?_ hrest
        · rw [List.mem_singleton] at hb
          exact fun hab => hmem (hb ▸ hab ▸ ha)
        · intro i hi
          rcases List.mem_append.1 hi with hi | hi
          · exact hlt i hi
          · simp only [List.mem_singleton] at hi
            exact hi ▸ hrand
        · simp only [List.length_append, List.length_singleton]
          omega
    · cases h
      exact ⟨hnd, hlt, by omega⟩

/-- **`FindTicketIdxs` returns `n` distinct indices below `size`.**
Source: `src/stake/hash256prng.cpp` `Hash256PRNG::FindTicketIdxs`
Kind: L -/
theorem findTicketIdxs_spec {fuel : Nat} {size n : UInt32} {idxs : List UInt32}
    {s s' : Hash256PRNG} (h : findTicketIdxs cr fuel size n s = .ok (idxs, s')) :
    idxs.Nodup ∧ (∀ i ∈ idxs, i < size) ∧ idxs.length = n.toNat := by
  unfold findTicketIdxs at h
  split_ifs at h with hsize
  by_cases hn : n = 0
  · -- nothing to draw: the loop returns the empty list at once
    subst hn
    cases fuel <;> simp [findTicketIdxsLoop] at h <;> (obtain ⟨rfl, -⟩ := h; simp)
  · have hpos : 0 < size := by
      rw [UInt32.lt_iff_toNat_lt]
      rw [ge_iff_le, UInt32.le_iff_toNat_le] at hsize
      have : n.toNat ≠ 0 := fun h0 => hn (UInt32.toNat_inj.1 (by simpa using h0))
      simp only [UInt32.toNat_zero]
      omega
    exact findTicketIdxsLoop_spec cr hpos List.nodup_nil (by simp) (by simp) h

/-! ## The draws are unbiased -/

/-- In `[a, a + u * q)` every residue below `u` is taken by exactly `q` numbers.
Source: none: infrastructure
Kind: L -/
theorem card_filter_mod_Ico (a u q k : Nat) (hk : k < u) :
    ((Finset.Ico a (a + u * q)).filter (· % u = k)).card = q := by
  induction q with
  | zero => simp
  | succ q ih =>
    have hsplit : Finset.Ico a (a + u * (q + 1)) =
        Finset.Ico a (a + u * q) ∪ Finset.Ico (a + u * q) (a + u * q + u) := by
      rw [Finset.Ico_union_Ico_eq_Ico (by omega) (by omega), Nat.mul_succ, Nat.add_assoc]
    -- the last block of `u` numbers holds exactly one number of residue `k`
    have hblock : ((Finset.Ico (a + u * q) (a + u * q + u)).filter (· % u = k)).card = 1 := by
      rw [Nat.filter_Ico_card_eq_of_periodic _ _ _ (fun x => by simp [Nat.add_mod_right]),
        Nat.count_eq_card_filter_range, Finset.card_eq_one]
      refine ⟨k, Finset.ext fun x => ?_⟩
      simp only [Finset.mem_filter, Finset.mem_range, Finset.mem_singleton]
      constructor
      · rintro ⟨hx, rfl⟩
        exact (Nat.mod_eq_of_lt hx).symm
      · rintro rfl
        exact ⟨hk, Nat.mod_eq_of_lt hk⟩
    rw [hsplit, Finset.filter_union, Finset.card_union_of_disjoint
      (Finset.disjoint_filter_filter (Finset.Ico_disjoint_Ico_consecutive _ _ _)), ih, hblock]

/-- From `n mod u` up to `n` the numbers are `n / u` whole periods of the residues below `u`.
Source: none: infrastructure
Kind: L -/
theorem card_filter_mod_Ico_mod (n : Nat) {u k : Nat} (hk : k < u) :
    ((Finset.Ico (n % u) n).filter (· % u = k)).card = (n - n % u) / u := by
  have h := card_filter_mod_Ico (n % u) u (n / u) k hk
  have hsplit := Nat.mod_add_div n u
  rw [hsplit] at h
  have hpos : 0 < u := by omega
  rw [h, show n - n % u = u * (n / u) by omega, Nat.mul_div_cancel_left _ hpos]

/-- Both formulas of the threshold compute `2^32 mod upperBound`: `1 + ~upperBound` is
`2^32 - upperBound` above `2^31`, and below it `2^32 - 2 * upperBound` has the same residue.
Source: `src/stake/hash256prng.cpp` `Hash256PRNG::UniformRandom`
Kind: L -/
theorem uniformRandomMin_toNat {upperBound : UInt32} (h : 2 ≤ upperBound) :
    (uniformRandomMin upperBound).toNat = 2 ^ 32 % upperBound.toNat := by
  have h2 : 2 ≤ upperBound.toNat := UInt32.le_iff_toNat_le.1 h
  have hlt := upperBound.toNat_lt
  unfold uniformRandomMin
  split_ifs with hbig
  · -- above `2^31` the bound fits once into `2^32`
    have hbig : 2 ^ 31 < upperBound.toNat := UInt32.lt_iff_toNat_lt.1 hbig
    rw [Nat.mod_eq_sub_mod (by omega), Nat.mod_eq_of_lt (by omega)]
    simp only [UInt32.toNat_add, UInt32.toNat_not, UInt32.toNat_one, UInt32.size]
    omega
  · have hsmall : upperBound.toNat ≤ 2 ^ 31 := by
      simpa [UInt32.lt_iff_toNat_lt] using hbig
    -- `2 * upperBound` wraps to `0` exactly at `2^31`, where `2^32 mod upperBound` is `0` too
    have hv : ((0xFFFFFFFF - upperBound * 2) + 1).toNat = (2 ^ 32 - upperBound.toNat * 2) % 2 ^ 32 := by
      simp only [UInt32.toNat_add, UInt32.toNat_sub, UInt32.toNat_mul, UInt32.toNat_ofNat]
      omega
    rw [UInt32.toNat_mod, hv]
    rcases Nat.lt_or_ge upperBound.toNat (2 ^ 31) with hlt | heq
    · have hnowrap : (2 ^ 32 - upperBound.toNat * 2) % 2 ^ 32 = 2 ^ 32 - upperBound.toNat * 2 :=
        Nat.mod_eq_of_lt (by omega)
      rw [hnowrap, Nat.sub_mul_mod (by omega)]
    · have : upperBound.toNat = 2 ^ 31 := by omega
      rw [this]
      norm_num

/-- **The lottery's draws are unbiased and well formed.** For a bound of at least two the
threshold is `2^32 mod upperBound`, every word from it up is accepted and reduced, and each residue
below the bound is hit by `(2^32 - min) / upperBound` of the accepted words; a draw lies below its
bound and is `0` for the bound `1`; and what `FindTicketIdxs` returns is `n` distinct indices
below `size`.
Source: `src/stake/hash256prng.cpp` `Hash256PRNG::UniformRandom`, `Hash256PRNG::FindTicketIdxs`
Kind: T -/
theorem lottery_draws_unbiased :
    (∀ upperBound : UInt32, 2 ≤ upperBound →
      (uniformRandomMin upperBound).toNat = 2 ^ 32 % upperBound.toNat ∧
      (∀ fuel s, uniformRandomMin upperBound ≤ (hash256Rand cr s).1 →
        uniformRandom cr (fuel + 1) upperBound s =
          .ok ((hash256Rand cr s).1 % upperBound, (hash256Rand cr s).2)) ∧
      (∀ k < upperBound.toNat,
        ((Finset.Ico (uniformRandomMin upperBound).toNat (2 ^ 32)).filter
            (· % upperBound.toNat = k)).card =
          (2 ^ 32 - (uniformRandomMin upperBound).toNat) / upperBound.toNat)) ∧
    (∀ fuel s, uniformRandom cr fuel 1 s = .ok (0, s)) ∧
    (∀ fuel upperBound s rand s', 0 < upperBound →
      uniformRandom cr fuel upperBound s = .ok (rand, s') → rand < upperBound) ∧
    (∀ fuel size n s idxs s', findTicketIdxs cr fuel size n s = .ok (idxs, s') →
      idxs.Nodup ∧ (∀ i ∈ idxs, i < size) ∧ idxs.length = n.toNat) := by
  refine ⟨fun upperBound h2 => ?_, fun _ _ => rfl, fun _ _ _ _ _ hpos h => uniformRandom_lt cr hpos h,
    fun _ _ _ _ _ _ h => findTicketIdxs_spec cr h⟩
  have hmin := uniformRandomMin_toNat h2
  refine ⟨hmin, fun fuel s hge => ?_, fun k hk => ?_⟩
  · -- a word at least the threshold ends the loop at the first draw
    rw [uniformRandom_eq, if_neg (UInt32.not_lt.2 h2)]
    simp only [uniformRandomLoop, if_neg (UInt32.not_lt.2 hge)]
  · rw [hmin]
    exact card_filter_mod_Ico_mod _ hk

/-- For the bound `3` the threshold is `2^32 mod 3 = 1`.
Source: `src/stake/hash256prng.cpp` `Hash256PRNG::uniformRandom`
Kind: W -/
theorem lottery_draws_unbiased_three : 2 ≤ (3 : UInt32) ∧ (uniformRandomMin 3).toNat = 1 :=
  ⟨by decide, ((lottery_draws_unbiased ⟨fun _ => Uint256.zero, fun _ => Uint256.zero⟩).1 3
    (by decide)).1.trans (by decide)⟩

end Hash256PRNG

end BwsCoin.Stake
