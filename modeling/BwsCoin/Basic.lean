import Mathlib.Order.Basic
import Mathlib.Order.Fin.Basic
import BwsCoin.Lib.ByteCodec

/-!
# Blobs, integer conversions and the outcome of a call

* `Uint256`, `Uint48` — `base_blob<256>` and `base_blob<48>` of `uint256.h`. A blob is the
  byte array `data`; its `Compare` is `memcmp(data, ...)`, which is the order of the number
  whose big-endian digits are `data[0], …, data[WIDTH-1]`. The model stores that number, so
  the order is the order of `Fin`.
* `Uint256.bytes`, `Uint256.word` — the bytes `data[0..31]` as the hashers read them, and
  the `i`-th 32-bit word as `Hash256PRNG::Hash256Rand` reads it (`bswap_32` of the
  little-endian load, i.e. the big-endian value of `data[4i..4i+3]`).
* `Uint256.toStakeState` — `StakeState::SetHex(h.GetHex())`: `GetHex` prints `data` from the
  last byte down and `SetHex` fills the six bytes of a `uint48` from the end of the string,
  so the result keeps `data[0..5]`.
* `Fault` — how a call can end without returning: a failed `assert`, a propagated exception,
  a null dereference, a loop that the model bounds and that did not finish in its bound, or
  undefined behaviour.
-/

namespace BwsCoin

/-- `uint256`: the 32 bytes `data`, as the number with big-endian digits `data[0..31]`.
Source: `src/uint256.h` `base_blob<256>`
Kind: D
Fidelity: exact (`Compare` is `memcmp`, i.e. the order of this number) -/
structure Uint256 where
  /-- The number whose big-endian bytes are `data[0], …, data[31]`. -/
  val : Fin (2 ^ 256)
  deriving Repr

/-- `uint48`: the six bytes `data`, as the number with big-endian digits `data[0..5]`.
Source: `src/uint256.h` `uint48`
Kind: D -/
structure Uint48 where
  /-- The number whose big-endian bytes are `data[0], …, data[5]`. -/
  val : Fin (2 ^ 48)
  deriving DecidableEq, Repr

namespace Uint256

/-- `base_blob::Compare`, a `memcmp` of the bytes, as a linear order.
Source: `src/uint256.h` `base_blob::Compare`
Kind: D -/
instance : LinearOrder Uint256 :=
  LinearOrder.lift' Uint256.val fun a b h => by cases a; cases b; simp_all

/-- The equality test of blobs is their equality. -/
instance : LawfulBEq Uint256 := inferInstance

/-- The all-zero blob, `uint256()`.
Source: `src/uint256.h` `base_blob()`
Kind: D -/
def zero : Uint256 := ⟨0⟩

/-- A small literal as a blob (used by tests).
Source: none: infrastructure
Kind: D -/
def ofNat (n : Nat) : Uint256 := ⟨Fin.ofNat _ n⟩

/-- The bytes `data[0..31]` in storage order, as `Hasher::Write(const uint256&)` and
`Hash(begin, end)` read them.
Source: `src/uint256.h` `base_blob::begin`
Kind: D -/
def bytes (h : Uint256) : List UInt8 :=
  (List.range 32).map fun i => UInt8.ofNat (h.val.val / 256 ^ (31 - i))

/-- The `i`-th 32-bit word of the blob as `Hash256Rand` reads it: `bswap_32` of the
little-endian load of `data[4i..4i+3]`, i.e. the big-endian value of those four bytes.
Source: `src/stake/hash256prng.cpp` `Hash256PRNG::Hash256Rand`
Kind: D -/
def word (h : Uint256) (i : Nat) : UInt32 :=
  UInt32.ofNat (h.val.val / 2 ^ (32 * (7 - i)))

/-- `StakeState::SetHex(h.GetHex())`: the first six bytes of `data`.
Source: `src/stake/stakenode.cpp` `StakeNode::ConnectNode`, `src/uint256.cpp` `SetHex`
Kind: D -/
def toStakeState (h : Uint256) : Uint48 :=
  ⟨⟨h.val.val / 2 ^ 208, by have := h.val.isLt; omega⟩⟩

end Uint256

/-- The zero `uint48` that `base_blob()` leaves in a fresh `StakeState`.
Source: `src/uint256.h` `base_blob()`
Kind: D -/
def Uint48.zero : Uint48 := ⟨0⟩

/-- A number below `2 ^ 48` as a `uint48`, taken modulo `2 ^ 48`.
Source: none: infrastructure
Kind: D -/
def Uint48.ofNat (n : Nat) : Uint48 := ⟨Fin.ofNat _ n⟩

/-- Why a call ended without returning.
Source: none: infrastructure (C++ control flow)
Kind: D -/
inductive Fault where
  /-- An `assert` (or `BOOST_ASSERT`) failed: the process aborts. -/
  | abort (what : String)
  /-- An exception is thrown and propagates out of the call. -/
  | raise (what : String)
  /-- A null pointer is dereferenced. -/
  | nullDeref
  /-- A loop that the model runs for a bounded number of turns did not finish. -/
  | diverge
  /-- The behaviour is undefined: a read past the end of an array. -/
  | undefined (what : String)
  deriving DecidableEq, Repr

/-! ## Sequencing fallible calls

The model writes a call that can fail as an `Except Fault` computation; these are the
equations its proofs step through such a sequence with. -/

section except

variable {ε α β : Type}

/-- Source: none: infrastructure. Kind: L -/
@[simp] theorem except_pure (a : α) : (pure a : Except ε α) = .ok a := rfl

/-- Source: none: infrastructure. Kind: L -/
@[simp] theorem except_ok_bind (a : α) (f : α → Except ε β) : (Except.ok a >>= f) = f a := rfl

/-- Source: none: infrastructure. Kind: L -/
@[simp] theorem except_error_bind (e : ε) (f : α → Except ε β) :
    (Except.error e >>= f) = .error e := rfl

/-- Source: none: infrastructure. Kind: L -/
@[simp] theorem except_map_ok (f : α → β) (a : α) : (Except.ok a : Except ε α).map f = .ok (f a) :=
  rfl

/-- Source: none: infrastructure. Kind: L -/
theorem except_map_eq_ok {f : α → β} {x : Except ε α} {b : β} :
    x.map f = .ok b ↔ ∃ a, x = .ok a ∧ f a = b := by
  cases x with
  | error e => simp [Except.map]
  | ok a => simp

/-- A sequence of fallible calls returned: its first call returned, and so did the rest.
Source: none: infrastructure
Kind: L -/
theorem except_bind_eq_ok {x : Except ε α} {f : α → Except ε β} {b : β} :
    x >>= f = .ok b ↔ ∃ a, x = .ok a ∧ f a = .ok b := by
  cases x with
  | error e => simp
  | ok a => simp

/-- A sequence of fallible calls failed: its first call failed, or it returned and the rest
failed.
Source: none: infrastructure
Kind: L -/
theorem except_bind_eq_error {x : Except ε α} {f : α → Except ε β} {e : ε} :
    x >>= f = .error e ↔ x = .error e ∨ ∃ a, x = .ok a ∧ f a = .error e := by
  cases x with
  | error e' => simp
  | ok a => simp

/-- A loop each of whose turns returns, returns.
Source: none: infrastructure
Kind: L -/
theorem foldlM_exists_ok {σ : Type} {step : σ → α → Except ε σ} :
    ∀ {as : List α} (c : σ), (∀ c, ∀ a ∈ as, ∃ c', step c a = .ok c') →
      ∃ c', as.foldlM step c = .ok c'
  | [], c, _ => ⟨c, rfl⟩
  | a :: as, c, h => by
    obtain ⟨c₁, h₁⟩ := h c a List.mem_cons_self
    obtain ⟨c', h'⟩ := foldlM_exists_ok c₁ fun c b hb => h c b (List.mem_cons_of_mem _ hb)
    exact ⟨c', by rw [List.foldlM_cons, h₁, except_ok_bind]; exact h'⟩

/-- A loop each of whose turns keeps `I` and returns, returns in a state that satisfies `I`.
Source: none: infrastructure
Kind: L -/
theorem foldlM_inv {σ : Type} {step : σ → α → Except ε σ} (I : σ → Prop) :
    ∀ {as : List α} (c : σ), I c → (∀ c, ∀ a ∈ as, I c → ∃ c', step c a = .ok c' ∧ I c') →
      ∃ c', as.foldlM step c = .ok c' ∧ I c'
  | [], c, hc, _ => ⟨c, rfl, hc⟩
  | a :: as, c, hc, h => by
    obtain ⟨c₁, h₁, hc₁⟩ := h c a List.mem_cons_self hc
    obtain ⟨c', h', hc'⟩ :=
      foldlM_inv I c₁ hc₁ fun c b hb => h c b (List.mem_cons_of_mem _ hb)
    exact ⟨c', by rw [List.foldlM_cons, h₁, except_ok_bind]; exact h', hc'⟩

end except

/-! ## Blobs from bytes -/

namespace Uint256

/-- `uint256(vch)`: a blob whose `data` is a copy of the 32 bytes `vch`; other sizes fail the
constructor's `assert`.
Source: `src/uint256.cpp` `base_blob::base_blob(const std::vector<unsigned char>&)`
Kind: D -/
def ofBytes (vch : List UInt8) : Except Fault Uint256 :=
  if h : vch.length = 32 then
    .ok ⟨⟨ByteCodec.beValue vch, by
      have := ByteCodec.beValue_lt vch
      rw [h] at this
      exact Nat.lt_of_lt_of_le this (by decide)⟩⟩
  else .error (.abort "vch.size() == sizeof(data)")

/-- The bytes of a blob are the big-endian bytes of its number.
Source: `src/uint256.h` `base_blob::begin`
Kind: L -/
theorem bytes_eq_beBytes (h : Uint256) : h.bytes = ByteCodec.beBytes 32 h.val.val := by
  rw [ByteCodec.beBytes_eq_map_range]
  rfl

/-- Source: `src/uint256.h` `base_blob::begin`. Kind: L -/
@[simp] theorem length_bytes (h : Uint256) : h.bytes.length = 32 := by
  rw [bytes_eq_beBytes, ByteCodec.length_beBytes]

/-- A blob is rebuilt from its bytes, as `uint256(ToByteVector(h))` does.
Source: `src/uint256.cpp` `base_blob::base_blob(const std::vector<unsigned char>&)`
Kind: L -/
theorem ofBytes_bytes (h : Uint256) : ofBytes h.bytes = .ok h := by
  rw [ofBytes, dif_pos (length_bytes h)]
  congr
  rw [bytes_eq_beBytes, ByteCodec.beValue_beBytes]
  exact Nat.mod_eq_of_lt (Nat.lt_of_lt_of_le h.val.isLt (by decide))

end Uint256

end BwsCoin
