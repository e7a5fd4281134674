import BwsCoin.Basic
import Mathlib.Data.Nat.Size
import Mathlib.Data.Nat.Bitwise

/-!
# `arith_uint256` and the compact target format

An `arith_uint256` (`src/arith_uint256.h`) is a `BitVec 256`: its `+`, `-`, `*`, unary `-` and
`~` wrap as the source's limb arithmetic does. The retargeting code of `pow.cpp` uses:

* the conversions of an `int64_t` argument: to `uint32_t` for `operator*=(uint32_t)`, which
  overload resolution prefers, and to `uint64_t` for the `base_uint(uint64_t)` constructor that
  `operator/=` needs (`uint32Of`, `uint64Of`);
* `div256` — `operator/=`, which throws `uint_error("Division by zero")`;
* `getCompact`, `setCompact` — `GetCompact` and `SetCompact`, the 32-bit "compact" encoding of
  a target: a byte count in the top byte and a 23-bit mantissa.

`getCompact_ok` proves that the two assertions of `GetCompact` hold for every value, so the
encoding never aborts.
-/

namespace BwsCoin.Pow

/-- An `int64_t` passed to a `uint32_t` parameter: its value modulo `2^32`.
Source: `src/arith_uint256.h` `base_uint::operator*=(uint32_t)`
Kind: D -/
def uint32Of (x : Int) : Nat := (x % 2 ^ 32).toNat

/-- Source: none: infrastructure. Kind: L -/
theorem uint32Of_of_range {x : Int} (h₁ : 0 ≤ x) (h₂ : x < 2 ^ 32) : (uint32Of x : Int) = x := by
  rw [uint32Of, Int.emod_eq_of_lt h₁ h₂, Int.toNat_of_nonneg h₁]

/-- An `int64_t` passed to the `base_uint(uint64_t)` constructor: its value modulo `2^64`.
Source: `src/arith_uint256.h` `base_uint::base_uint(uint64_t)`
Kind: D -/
def uint64Of (x : Int) : Nat := (x % 2 ^ 64).toNat

/-- `operator/=`: integer division, throwing on a zero divisor.
Source: `src/arith_uint256.cpp` `base_uint::operator/=`
Kind: D
Fidelity: exact -/
def div256 (a b : BitVec 256) : Except Fault (BitVec 256) :=
  if b = 0 then .error (.raise "Division by zero") else .ok (a / b)

/-- `base_uint::bits()`: the position of the highest set bit, plus one.
Source: `src/arith_uint256.cpp` `base_uint::bits`
Kind: D -/
def bits (a : BitVec 256) : Nat := a.toNat.size

/-- The first half of `arith_uint256::GetCompact()`: the byte count `nSize` and the top three
bytes of the value, before the sign adjustment.
Source: `src/arith_uint256.cpp` `arith_uint256::GetCompact` (lines up to the sign test)
Kind: D
Fidelity: exact -/
def compactMantissa (a : BitVec 256) : UInt32 × Nat :=
  let nSize := (bits a + 7) / 8
  let nCompact : UInt32 :=
    if nSize ≤ 3 then UInt32.ofNat ((a.toNat % 2 ^ 64) <<< (8 * (3 - nSize)))
    else UInt32.ofNat ((a.toNat >>> (8 * (nSize - 3))) % 2 ^ 64)
  (nCompact, nSize)

/-- `arith_uint256::GetCompact()`: the mantissa is shifted down a byte when the sign bit
`0x00800000` would be set; then the two assertions.
Source: `src/arith_uint256.cpp` `arith_uint256::GetCompact`
Kind: D
Fidelity: exact, with `fNegative = false` as every modelled caller passes -/
def getCompact (a : BitVec 256) : Except Fault UInt32 :=
  let (nCompact, nSize) := compactMantissa a
  let (nCompact, nSize) :=
    if nCompact &&& 0x00800000 ≠ 0 then (nCompact >>> 8, nSize + 1) else (nCompact, nSize)
  if nCompact &&& ~~~0x007fffff ≠ 0 then .error (.abort "(nCompact & ~0x007fffff) == 0")
  else if ¬ nSize < 256 then .error (.abort "nSize < 256")
  else .ok (nCompact ||| UInt32.ofNat (nSize <<< 24))

/-- `arith_uint256::SetCompact(nCompact)`: the mantissa shifted by the byte count.
Source: `src/arith_uint256.cpp` `arith_uint256::SetCompact`
Kind: D
Fidelity: exact on the value; the negative and overflow flags are read by no modelled caller -/
def setCompact (nCompact : UInt32) : BitVec 256 :=
  let nSize := (nCompact >>> 24).toNat
  let nWord := (nCompact &&& 0x007fffff).toNat
  if nSize ≤ 3 then BitVec.ofNat 256 (nWord >>> (8 * (3 - nSize)))
  else BitVec.ofNat 256 nWord <<< (8 * (nSize - 3))

/-! ## The compact encoding never aborts -/

/-- Source: none: infrastructure. Kind: L -/
theorem div256_of_ne_zero {a b : BitVec 256} (hb : b ≠ 0) : div256 a b = .ok (a / b) := by
  unfold div256
  rw [if_neg hb]

/-- Below `2^24`, the sign bit `0x00800000` is set exactly from `2^23` on.
Source: none: infrastructure
Kind: L -/
theorem and_sign_ne_zero_iff {x : UInt32} (hx : x.toNat < 2 ^ 24) :
    x &&& 0x00800000 ≠ 0 ↔ 2 ^ 23 ≤ x.toNat := by
  rw [ne_eq, ← UInt32.toNat_inj, UInt32.toNat_and,
    show (0x00800000 : UInt32).toNat = 2 ^ 23 from rfl, UInt32.toNat_zero, Nat.and_two_pow,
    Nat.testBit_eq_decide_div_mod_eq]
  -- below `2^24` bit 23 is the quotient by `2^23`
  have hdiv : x.toNat / 2 ^ 23 < 2 := Nat.div_lt_of_lt_mul (by omega)
  have hle : 1 ≤ x.toNat / 2 ^ 23 ↔ 2 ^ 23 ≤ x.toNat := by
    rw [Nat.le_div_iff_mul_le (Nat.two_pow_pos 23), Nat.one_mul]
  rw [← hle]
  by_cases h : x.toNat / 2 ^ 23 % 2 = 1
  · simp only [h, decide_true, Bool.toNat_true, Nat.one_mul]
    omega
  · simp only [h, decide_false, Bool.toNat_false, Nat.zero_mul, not_true_eq_false, false_iff]
    omega

/-- Below `2^23`, a number has no bit outside the mantissa mask `0x007fffff`.
Source: none: infrastructure
Kind: L -/
theorem and_not_mantissa_eq_zero {x : UInt32} (hx : x.toNat < 2 ^ 23) :
    x &&& ~~~0x007fffff = 0 := by
  apply UInt32.toNat_inj.1
  rw [UInt32.toNat_and, show (~~~(0x007fffff : UInt32)).toNat = 2 ^ 23 * 0x1ff from rfl,
    UInt32.toNat_zero]
  apply Nat.eq_of_testBit_eq
  intro i
  rw [Nat.testBit_and, Nat.zero_testBit, Nat.testBit_two_pow_mul]
  by_cases hi : 23 ≤ i
  · -- above the mantissa the number has no bit
    rw [Nat.testBit_eq_false_of_lt (lt_of_lt_of_le hx (Nat.pow_le_pow_right (by omega) hi)),
      Bool.false_and]
  · -- below it the mask has none
    simp [hi]

/-- The top three bytes of a value, before the sign adjustment, fit in 24 bits, and the byte
count is at most 32.
Source: `src/arith_uint256.cpp` `arith_uint256::GetCompact`
Kind: L -/
theorem compactMantissa_lt (a : BitVec 256) :
    (compactMantissa a).1.toNat < 2 ^ 24 ∧ (compactMantissa a).2 ≤ 32 := by
  have hbits : bits a ≤ 256 := Nat.size_le.2 a.isLt
  have hsize : a.toNat < 2 ^ (8 * ((bits a + 7) / 8)) :=
    lt_of_lt_of_le (Nat.lt_size_self a.toNat) (Nat.pow_le_pow_right (by omega) (by unfold bits; omega))
  have h24 : 2 ^ 24 < 2 ^ 32 := Nat.pow_lt_pow_right (by omega) (by omega)
  unfold compactMantissa
  dsimp only
  refine ⟨?_, by omega⟩
  split_ifs with hs
  · -- a short number is shifted up to three bytes
    have ha64 : a.toNat % 2 ^ 64 = a.toNat := Nat.mod_eq_of_lt (lt_of_lt_of_le hsize
      (Nat.pow_le_pow_right (by omega) (by omega)))
    have hlt : a.toNat <<< (8 * (3 - (bits a + 7) / 8)) < 2 ^ 24 := by
      rw [Nat.shiftLeft_eq]
      calc a.toNat * 2 ^ (8 * (3 - (bits a + 7) / 8))
          < 2 ^ (8 * ((bits a + 7) / 8)) * 2 ^ (8 * (3 - (bits a + 7) / 8)) :=
            Nat.mul_lt_mul_of_pos_right hsize (Nat.two_pow_pos _)
        _ = 2 ^ 24 := by rw [← Nat.pow_add]; congr 1; omega
    rw [ha64, UInt32.toNat_ofNat', Nat.mod_eq_of_lt (lt_trans hlt h24)]
    exact hlt
  · -- a long number keeps its top three bytes
    have hlt : a.toNat >>> (8 * ((bits a + 7) / 8 - 3)) < 2 ^ 24 := by
      rw [Nat.shiftRight_eq_div_pow, Nat.div_lt_iff_lt_mul (Nat.two_pow_pos _), ← Nat.pow_add]
      exact lt_of_lt_of_le hsize (Nat.pow_le_pow_right (by omega) (by omega))
    have h64 : 2 ^ 24 < 2 ^ 64 := Nat.pow_lt_pow_right (by omega) (by omega)
    rw [Nat.mod_eq_of_lt (lt_trans hlt h64), UInt32.toNat_ofNat',
      Nat.mod_eq_of_lt (lt_trans hlt h24)]
    exact hlt

/-- **`GetCompact` never aborts**: for every value both assertions hold.
Source: `src/arith_uint256.cpp` `arith_uint256::GetCompact`
Kind: L -/
theorem getCompact_ok (a : BitVec 256) : ∃ c, getCompact a = .ok c := by
  obtain ⟨hm, hn⟩ := compactMantissa_lt a
  unfold getCompact
  generalize compactMantissa a = m at hm hn ⊢
  obtain ⟨x, n⟩ := m
  dsimp only at hm hn ⊢
  by_cases hsign : x &&& 0x00800000 ≠ 0
  · -- the mantissa moves down a byte and the byte count up
    have hshift : (x >>> 8).toNat < 2 ^ 23 := by
      rw [UInt32.toNat_shiftRight, show (8 : UInt32).toNat % 32 = 8 from rfl,
        Nat.shiftRight_eq_div_pow]
      omega
    rw [if_pos hsign]
    dsimp only
    rw [if_neg (not_not.2 (and_not_mantissa_eq_zero hshift)), if_neg (not_not.2 (by omega))]
    exact ⟨_, rfl⟩
  · have hlow : x.toNat < 2 ^ 23 := by
      by_contra hge
      exact hsign ((and_sign_ne_zero_iff hm).2 (by omega))
    rw [if_neg hsign]
    dsimp only
    rw [if_neg (not_not.2 (and_not_mantissa_eq_zero hlow)), if_neg (not_not.2 (by omega))]
    exact ⟨_, rfl⟩

end BwsCoin.Pow
