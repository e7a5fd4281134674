import Mathlib.Tactic.Ring

/-!
# Fixed-width byte encodings of natural numbers

A number written in `n` bytes, least significant first (`leBytes`) or most significant first
(`beBytes`), and the value of a byte string read either way (`leValue`, `beValue`). This module
names no particular program.

* `leValue_leBytes`, `beValue_beBytes` — reading back what was written gives the number modulo
  `256 ^ n`;
* `leBytes_leValue`, `beBytes_beValue` — writing back what was read, in as many bytes, gives
  the byte string;
* `leValue_append` — the bytes after a prefix count `256 ^ (length of the prefix)` times;
* `beBytes_eq_map_range` — the big-endian bytes, byte by byte, as an array of digits.
-/

namespace ByteCodec

/-! ## Little-endian -/

/-- The value of bytes read least significant first.
Source: none: infrastructure
Kind: D -/
def leValue (vch : List UInt8) : Nat := vch.foldr (fun b acc => b.toNat + 256 * acc) 0

/-- The `n` bytes of `x` (modulo `256 ^ n`), least significant first.
Source: none: infrastructure
Kind: D -/
def leBytes : Nat → Nat → List UInt8
  | 0, _ => []
  | n + 1, x => UInt8.ofNat x :: leBytes n (x / 256)

/-- Source: none: infrastructure. Kind: L -/
@[simp] theorem leValue_nil : leValue [] = 0 := rfl

/-- Source: none: infrastructure. Kind: L -/
@[simp] theorem leValue_cons (b : UInt8) (vch : List UInt8) :
    leValue (b :: vch) = b.toNat + 256 * leValue vch := rfl

/-- Source: none: infrastructure. Kind: L -/
@[simp] theorem leBytes_zero (x : Nat) : leBytes 0 x = [] := rfl

/-- Source: none: infrastructure. Kind: L -/
@[simp] theorem leBytes_succ (n x : Nat) :
    leBytes (n + 1) x = UInt8.ofNat x :: leBytes n (x / 256) := rfl

/-- Source: none: infrastructure. Kind: L -/
@[simp] theorem length_leBytes : ∀ n x, (leBytes n x).length = n
  | 0, _ => rfl
  | n + 1, x => by rw [leBytes_succ, List.length_cons, length_leBytes n]

/-- The bytes after a prefix count `256 ^ (length of the prefix)` times.
Source: none: infrastructure
Kind: L -/
theorem leValue_append (a b : List UInt8) :
    leValue (a ++ b) = leValue a + 256 ^ a.length * leValue b := by
  induction a with
  | nil => simp
  | cons x a ih =>
    rw [List.cons_append, leValue_cons, ih, leValue_cons, List.length_cons, pow_succ]
    ring

/-- A byte appended at the end is the most significant.
Source: none: infrastructure
Kind: L -/
theorem leValue_append_singleton (vch : List UInt8) (b : UInt8) :
    leValue (vch ++ [b]) = leValue vch + 256 ^ vch.length * b.toNat := by
  rw [leValue_append, leValue_cons, leValue_nil, Nat.mul_zero, Nat.add_zero]

/-- Source: none: infrastructure. Kind: L -/
theorem leValue_lt (vch : List UInt8) : leValue vch < 256 ^ vch.length := by
  induction vch with
  | nil => simp
  | cons a vch ih =>
    rw [leValue_cons, List.length_cons, Nat.pow_succ]
    have := a.toNat_lt
    have : 256 * leValue vch + 256 ≤ 256 * 256 ^ vch.length := by omega
    rw [Nat.mul_comm (256 ^ vch.length) 256]
    omega

/-- Reading back the `n` bytes written gives the number modulo `256 ^ n`.
Source: none: infrastructure
Kind: L -/
theorem leValue_leBytes : ∀ n x, leValue (leBytes n x) = x % 256 ^ n
  | 0, x => by simp [Nat.mod_one]
  | n + 1, x => by
    rw [leBytes_succ, leValue_cons, leValue_leBytes n, UInt8.toNat_ofNat',
      show 256 ^ (n + 1) = 256 * 256 ^ n from pow_succ' 256 n, Nat.mod_mul]

/-- Writing back the bytes read, in as many bytes, gives the bytes.
Source: none: infrastructure
Kind: L -/
theorem leBytes_leValue : ∀ vch : List UInt8, leBytes vch.length (leValue vch) = vch
  | [] => rfl
  | b :: vch => by
    have hb := b.toNat_lt
    have hlo : (b.toNat + 256 * leValue vch) % 256 = b.toNat := by omega
    have hhi : (b.toNat + 256 * leValue vch) / 256 = leValue vch := by omega
    rw [List.length_cons, leBytes_succ, leValue_cons, hhi, leBytes_leValue vch]
    congr 1
    apply UInt8.toNat_inj.1
    rw [UInt8.toNat_ofNat']
    exact hlo

/-- The `n` bytes written of a number are those of its residue modulo `256 ^ n`.
Source: none: infrastructure
Kind: L -/
theorem leBytes_mod (n x : Nat) : leBytes n (x % 256 ^ n) = leBytes n x := by
  have h := leBytes_leValue (leBytes n x)
  rwa [length_leBytes, leValue_leBytes] at h

/-- The `j`-th byte written is the `j`-th base-256 digit.
Source: none: infrastructure
Kind: L -/
theorem getElem_leBytes : ∀ {n x j : Nat} (h : j < (leBytes n x).length),
    (leBytes n x)[j] = UInt8.ofNat (x / 256 ^ j)
  | 0, _, _, h => absurd h (by simp)
  | n + 1, x, 0, _ => by simp
  | n + 1, x, j + 1, h => by
    simp only [leBytes_succ, List.getElem_cons_succ]
    rw [getElem_leBytes, Nat.div_div_eq_div_mul, pow_succ']

/-! ## Big-endian -/

/-- The value of bytes read most significant first.
Source: none: infrastructure
Kind: D -/
def beValue (vch : List UInt8) : Nat := vch.foldl (fun acc b => 256 * acc + b.toNat) 0

/-- The `n` bytes of `x` (modulo `256 ^ n`), most significant first.
Source: none: infrastructure
Kind: D -/
def beBytes (n x : Nat) : List UInt8 := (leBytes n x).reverse

/-- Source: none: infrastructure. Kind: L -/
@[simp] theorem length_beBytes (n x : Nat) : (beBytes n x).length = n := by
  rw [beBytes, List.length_reverse, length_leBytes]

/-- The fold of a big-endian read from an accumulator `acc`.
Source: none: infrastructure
Kind: L -/
theorem foldl_beValue (vch : List UInt8) (acc : Nat) :
    vch.foldl (fun acc b => 256 * acc + b.toNat) acc =
      acc * 256 ^ vch.length + leValue vch.reverse := by
  induction vch generalizing acc with
  | nil => simp
  | cons b vch ih =>
    rw [List.foldl_cons, ih, List.reverse_cons, leValue_append_singleton, List.length_reverse,
      List.length_cons, pow_succ]
    ring

/-- A big-endian read is the little-endian read of the reversed bytes.
Source: none: infrastructure
Kind: L -/
theorem beValue_eq_leValue_reverse (vch : List UInt8) : beValue vch = leValue vch.reverse := by
  rw [beValue, foldl_beValue, Nat.zero_mul, Nat.zero_add]

/-- Source: none: infrastructure. Kind: L -/
theorem beValue_lt (vch : List UInt8) : beValue vch < 256 ^ vch.length := by
  rw [beValue_eq_leValue_reverse, ← List.length_reverse]
  exact leValue_lt _

/-- Reading back the `n` bytes written gives the number modulo `256 ^ n`.
Source: none: infrastructure
Kind: L -/
theorem beValue_beBytes (n x : Nat) : beValue (beBytes n x) = x % 256 ^ n := by
  rw [beValue_eq_leValue_reverse, beBytes, List.reverse_reverse, leValue_leBytes]

/-- Writing back the bytes read, in as many bytes, gives the bytes.
Source: none: infrastructure
Kind: L -/
theorem beBytes_beValue (vch : List UInt8) : beBytes vch.length (beValue vch) = vch := by
  rw [beValue_eq_leValue_reverse, beBytes, ← List.length_reverse, leBytes_leValue,
    List.reverse_reverse]

/-- The big-endian bytes as digits: the `i`-th is `x / 256 ^ (n - 1 - i)`.
Source: none: infrastructure
Kind: L -/
theorem beBytes_eq_map_range (n x : Nat) :
    beBytes n x = (List.range n).map fun i => UInt8.ofNat (x / 256 ^ (n - 1 - i)) := by
  apply List.ext_getElem (by simp)
  intro i h₁ h₂
  simp only [beBytes, List.getElem_reverse, getElem_leBytes, List.getElem_map,
    List.getElem_range, length_leBytes]

end ByteCodec
