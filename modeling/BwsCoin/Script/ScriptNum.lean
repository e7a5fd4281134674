import BwsCoin.Script.Classify
import BwsCoin.Lib.ByteCodec
import Mathlib.Tactic.Linarith

/-!
# Script numbers written and read back

`script << n` for an integer `n` (`CScript::push_int64`) writes `OP_0`, `OP_1 .. OP_16`, or a
push of `CScriptNum::serialize(n)`, the little-endian sign-magnitude bytes; `ParseDataItem` reads
each of these back as a data item and `CScriptNum(item, false, nMaxNumSize)` decodes it.

* `setVch_serialize`: `set_vch` inverts `serialize` on every `int64_t` above `INT64_MIN`;
* `serialize_length_le_iff`: a number of magnitude below `2^(8k-1)` takes at most `k` bytes, so the
  decode with limit `k` does not throw (`ofBytes_pushedInt64Item`), and one of `2^(8k-1)` or
  more takes more than `k` bytes, so it does (`ofBytes_serialize_eq_error`);
* `parseDataItem_pushInt64`: `ParseDataItem` reads `push_int64(n)` back for `n ≠ -1`;
* `solver_structured`: `Solver` classifies `OP_RETURN OP_STRUCT` and data items with a version-1
  staking header as `TX_STRUCT_DATA`, with the items as its solutions.
-/

namespace BwsCoin.Script

open ByteCodec

/-! ## The magnitude -/

/-- The magnitude loop writes the number's little-endian bytes.
Source: `src/script/script.h` `CScriptNum::serialize`
Kind: L -/
theorem leValue_magnitudeBytes : ∀ (fuel n : Nat), n < 256 ^ fuel →
    leValue (magnitudeBytes fuel n) = n
  | 0, n, h => by simp at h; subst h; rfl
  | fuel + 1, n, h => by
    rw [magnitudeBytes]
    split
    · rename_i h0
      exact h0.symm
    · rw [leValue_cons, leValue_magnitudeBytes fuel (n / 256) (by rw [Nat.pow_succ] at h; omega),
        UInt8.toNat_ofNat']
      omega

/-- Source: `src/script/script.h` `CScriptNum::serialize`. Kind: L -/
theorem magnitudeBytes_zero (fuel : Nat) : magnitudeBytes fuel 0 = [] := by
  cases fuel <;> rfl

/-- The magnitude of a nonzero number ends in a nonzero byte.
Source: `src/script/script.h` `CScriptNum::serialize`
Kind: L -/
theorem magnitudeBytes_eq_append : ∀ {fuel n : Nat}, n ≠ 0 → n < 256 ^ fuel →
    ∃ init last, magnitudeBytes fuel n = init ++ [last] ∧ 0 < last.toNat
  | 0, n, h0, h => by simp at h; omega
  | fuel + 1, n, h0, h => by
    rw [magnitudeBytes, if_neg h0]
    by_cases hq : n / 256 = 0
    · refine ⟨[], UInt8.ofNat (n % 256), by rw [hq, magnitudeBytes_zero]; rfl, ?_⟩
      rw [UInt8.toNat_ofNat']
      omega
    · obtain ⟨init, last, heq, hlast⟩ :=
        @magnitudeBytes_eq_append fuel _ hq (by rw [Nat.pow_succ] at h; omega)
      exact ⟨UInt8.ofNat (n % 256) :: init, last, by rw [heq]; rfl, hlast⟩

/-! ## The sign bit -/

set_option maxRecDepth 4096 in
/-- Source: none: byte arithmetic. Kind: L -/
theorem and_0x80_ne_zero_iff_of_fin : ∀ n : Fin 256,
    ((UInt8.ofNat n) &&& 0x80 ≠ 0) ↔ 128 ≤ n.val := by
  decide

/-- The sign bit of a byte is set exactly when it is at least `0x80`.
Source: none: byte arithmetic
Kind: L -/
theorem and_0x80_ne_zero_iff (b : UInt8) : b &&& 0x80 ≠ 0 ↔ 128 ≤ b.toNat := by
  have h := and_0x80_ne_zero_iff_of_fin ⟨b.toNat, b.toNat_lt⟩
  rwa [UInt8.ofNat_toNat] at h

/-- Setting the sign bit of a byte below `0x80` adds `0x80`.
Source: none: byte arithmetic
Kind: L -/
theorem toNat_or_0x80 {b : UInt8} (h : b.toNat < 128) : (b ||| 0x80).toNat = b.toNat + 128 := by
  have key : ∀ n : Fin 128, ((UInt8.ofNat n) ||| 0x80).toNat = n + 128 := by decide
  have := key ⟨b.toNat, h⟩
  rwa [UInt8.ofNat_toNat] at this

/-! ## `serialize` and `set_vch` -/

/-- `serialize` of a nonzero number: its magnitude `init ++ [last]`, with the sign written into
the last byte or into one after it.
Source: `src/script/script.h` `CScriptNum::serialize`
Kind: L -/
theorem serialize_of_ne_zero {v : Int} (hv : v ≠ 0) {init : List UInt8} {last : UInt8}
    (hm : magnitudeBytes 8 v.natAbs = init ++ [last]) :
    CScriptNum.serialize v =
      if 128 ≤ last.toNat then init ++ [last] ++ [if v < 0 then 0x80 else 0]
      else if v < 0 then init ++ [last ||| 0x80] else init ++ [last] := by
  rw [CScriptNum.serialize, if_neg hv]
  simp only [hm, List.getLast?_concat, and_0x80_ne_zero_iff, decide_eq_true_eq,
    List.dropLast_concat]

/-- `set_vch` of bytes whose last has the sign bit set: minus their value without it.
Source: `src/script/script.h` `CScriptNum::set_vch`
Kind: L -/
theorem setVch_append_of_ge (init : List UInt8) {last : UInt8} (h : 128 ≤ last.toNat) :
    setVch (init ++ [last]) = -((leValue (init ++ [last]) : Int) - 128 * 256 ^ init.length) := by
  have hset : last &&& 0x80 ≠ 0 := (and_0x80_ne_zero_iff last).2 h
  unfold setVch
  rw [List.getLast?_concat]
  dsimp only
  rw [if_pos hset, List.length_append, List.length_singleton, Nat.add_sub_cancel]
  rfl

/-- `set_vch` of bytes whose last has the sign bit clear: their value.
Source: `src/script/script.h` `CScriptNum::set_vch`
Kind: L -/
theorem setVch_append_of_lt (init : List UInt8) {last : UInt8} (h : last.toNat < 128) :
    setVch (init ++ [last]) = leValue (init ++ [last]) := by
  have hclear : ¬ (last &&& 0x80 ≠ 0) := fun h' => by
    have := (and_0x80_ne_zero_iff last).1 h'
    omega
  unfold setVch
  rw [List.getLast?_concat]
  dsimp only
  rw [if_neg hclear]
  rfl

/-- **`set_vch` inverts `serialize` on every `int64_t` but `INT64_MIN`.**
Source: `src/script/script.h` `CScriptNum::serialize`, `CScriptNum::set_vch`
Kind: L -/
theorem setVch_serialize {v : Int} (h : v.natAbs < 2 ^ 63) :
    setVch (CScriptNum.serialize v) = v := by
  by_cases hv : v = 0
  · subst hv
    rfl
  have h64 : v.natAbs < 256 ^ 8 := by omega
  obtain ⟨init, last, hm, hlast⟩ :=
    magnitudeBytes_eq_append (Int.natAbs_ne_zero.2 hv) h64
  have hval : leValue (init ++ [last]) = v.natAbs := by
    rw [← hm, leValue_magnitudeBytes 8 _ h64]
  have hval' : (leValue init : Int) + 256 ^ init.length * last.toNat = v.natAbs := by
    rw [leValue_append_singleton] at hval
    exact_mod_cast hval
  have h128 : (128 : UInt8).toNat = 128 := rfl
  have h0 : (0 : UInt8).toNat = 0 := rfl
  rw [serialize_of_ne_zero hv hm]
  by_cases hneg : v < 0
  · have habs : (v.natAbs : Int) = -v := Int.ofNat_natAbs_of_nonpos (Int.le_of_lt hneg)
    by_cases htop : 128 ≤ last.toNat
    · -- an extra `0x80` byte carries the sign
      have hpow : (256 : Int) ^ (init.length + 1) = 256 ^ init.length * 256 := Int.pow_succ _ _
      rw [if_pos htop, if_pos hneg, setVch_append_of_ge _ (by rw [h128]),
        leValue_append_singleton, h128, hval, List.length_append, List.length_singleton]
      have habs' : |v| = -v := abs_of_neg hneg
      push_cast
      rw [hpow]
      omega
    · -- the sign goes into the top bit of the last byte
      have hor := toNat_or_0x80 (b := last) (by omega)
      rw [if_neg htop, if_pos hneg, setVch_append_of_ge _ (by omega), leValue_append_singleton, hor]
      push_cast
      linarith
  · have habs : (v.natAbs : Int) = v := Int.natAbs_of_nonneg (by omega)
    by_cases htop : 128 ≤ last.toNat
    · rw [if_pos htop, if_neg hneg, setVch_append_of_lt _ (by rw [h0]; omega),
        leValue_append_singleton, h0, hval]
      omega
    · rw [if_neg htop, if_neg hneg, setVch_append_of_lt _ (by omega), hval]
      exact habs

/-- `serialize` of a number of magnitude below `2^(8k-1)` takes at most `k` bytes, and of one
of at least that more than `k`.
Source: `src/script/script.h` `CScriptNum::serialize`
Kind: L -/
theorem serialize_length_le_iff {v : Int} (h : v.natAbs < 2 ^ 63) {k : Nat} (hk : 1 ≤ k) :
    (CScriptNum.serialize v).length ≤ k ↔ v.natAbs < 128 * 256 ^ (k - 1) := by
  by_cases hv : v = 0
  · subst hv
    simp only [CScriptNum.serialize, if_true, List.length_nil, Nat.zero_le, Int.natAbs_zero,
      true_iff]
    exact Nat.mul_pos (by decide) (Nat.pow_pos (by decide))
  have h64 : v.natAbs < 256 ^ 8 := by omega
  obtain ⟨init, last, hm, hlast⟩ :=
    magnitudeBytes_eq_append (Int.natAbs_ne_zero.2 hv) h64
  have hval : leValue (init ++ [last]) = v.natAbs := by
    rw [← hm, leValue_magnitudeBytes 8 _ h64]
  rw [leValue_append_singleton] at hval
  have hinit := leValue_lt init
  have hl := last.toNat_lt
  -- the magnitude lies between `last * 256^|init|` and `(last + 1) * 256^|init|`
  have hlo : 256 ^ init.length * last.toNat ≤ v.natAbs := by omega
  have hhi : v.natAbs < 256 ^ init.length * (last.toNat + 1) := by rw [Nat.mul_succ]; omega
  have hlen : (CScriptNum.serialize v).length =
      if 128 ≤ last.toNat then init.length + 2 else init.length + 1 := by
    rw [serialize_of_ne_zero hv hm]
    split_ifs <;> simp
  rw [hlen]
  obtain ⟨j, rfl⟩ : ∃ j, k = j + 1 := ⟨k - 1, by omega⟩
  rw [Nat.add_sub_cancel]
  have hP : 256 ^ (init.length + 1) = 256 ^ init.length * 256 := Nat.pow_succ _ _
  have hQ : 256 ^ (j + 1) = 256 ^ j * 256 := Nat.pow_succ _ _
  have hPl : 256 ^ init.length * last.toNat ≤ 256 ^ init.length * 255 :=
    Nat.mul_le_mul_left _ (by omega)
  split_ifs with htop
  · -- a full top byte needs the extra sign byte
    have hP128 : 256 ^ init.length * 128 ≤ 256 ^ init.length * last.toNat :=
      Nat.mul_le_mul_left _ htop
    constructor
    · intro hle
      have : 256 ^ (init.length + 1) ≤ 256 ^ j := Nat.pow_le_pow_right (by decide) (by omega)
      omega
    · intro hlt
      by_contra hgt
      have : 256 ^ j ≤ 256 ^ init.length := Nat.pow_le_pow_right (by decide) (by omega)
      omega
  · have hP127 : 256 ^ init.length * last.toNat ≤ 256 ^ init.length * 127 :=
      Nat.mul_le_mul_left _ (by omega)
    have hP1 : 256 ^ init.length * 1 ≤ 256 ^ init.length * last.toNat :=
      Nat.mul_le_mul_left _ hlast
    constructor
    · intro hle
      have : 256 ^ init.length ≤ 256 ^ j := Nat.pow_le_pow_right (by decide) (by omega)
      omega
    · intro hlt
      by_contra hgt
      have : 256 ^ (j + 1) ≤ 256 ^ init.length := Nat.pow_le_pow_right (by decide) (by omega)
      omega

/-- Source: `src/script/script.h` `CScriptNum::serialize`. Kind: L -/
theorem serialize_ne_nil {v : Int} (hv : v ≠ 0) (h : v.natAbs < 2 ^ 63) :
    CScriptNum.serialize v ≠ [] := by
  intro hnil
  have := setVch_serialize h
  rw [hnil] at this
  exact hv this.symm

/-! ## `push_int64` read back -/

/-- The data item `ParseDataItem` reads from `push_int64(n)` for `n ≠ -1`: the byte `0` for
`OP_0`, the byte `n` for `OP_1 .. OP_16`, and otherwise the pushed serialization.
Source: `src/script/standard.cpp` `ParseDataItem`, `src/script/script.h` `CScript::push_int64`
Kind: S -/
def pushedInt64Item (n : Int) : List UInt8 :=
  if n = 0 then [0] else if 1 ≤ n ∧ n ≤ 16 then [UInt8.ofNat n.toNat] else CScriptNum.serialize n

/-- `ParseDataItem` reads `push_int64(n)` back, for every `int64_t` but `-1`, whose `OP_1NEGATE`
is not a data item, and `INT64_MIN`.
Source: `src/script/standard.cpp` `ParseDataItem`, `src/script/script.h` `CScript::push_int64`
Kind: L -/
theorem parseDataItem_pushInt64 {n : Int} (hn : n ≠ -1) (h : n.natAbs < 2 ^ 63)
    (rest : List UInt8) :
    parseDataItem (pushInt64 n ++ rest) = some (pushedInt64Item n, rest) := by
  unfold pushInt64 pushedInt64Item
  by_cases hz : n = 0
  · subst hz
    rfl
  by_cases hsmall : 1 ≤ n ∧ n ≤ 16
  · -- `OP_n`, read back as the byte `n`
    rw [if_pos (Or.inr hsmall), if_neg hz, if_pos hsmall]
    obtain ⟨m, rfl⟩ := Int.eq_ofNat_of_zero_le (by omega : 0 ≤ n)
    have hm : 1 ≤ m ∧ m ≤ 16 := by omega
    have hop : (UInt8.ofNat ((m : Int) + (op1.toNat - 1)).toNat) = UInt8.ofNat (m + 80) := by
      congr 1
    rw [hop]
    -- `OP_1 .. OP_16` are exactly the opcodes `m + 80`, and read back as `m`
    have key : ∀ k : Fin 16, UInt8.ofNat (k.val + 81) ≠ op0 ∧
        (op1 ≤ UInt8.ofNat (k.val + 81) ∧ UInt8.ofNat (k.val + 81) ≤ op16) ∧
        UInt8.ofNat (k.val + 81) - op1 + 1 = UInt8.ofNat (k.val + 1) := by decide
    obtain ⟨hne0, hop1, hval⟩ := key ⟨m - 1, by omega⟩
    simp only [show m - 1 + 81 = m + 80 by omega, show m - 1 + 1 = m by omega] at hne0 hop1 hval
    simp only [List.singleton_append, parseDataItem, if_neg hne0, if_pos hop1, hval,
      Int.toNat_natCast]
  · -- `OP_1NEGATE` is excluded, so the number is pushed as its serialization
    rw [if_neg (by omega), if_neg hz, if_neg hz, if_neg hsmall]
    have hlen : (CScriptNum.serialize n).length ≤ 8 :=
      (serialize_length_le_iff h (by decide)).2 (by simp; omega)
    rw [parseDataItem_pushBytes (by omega), pushedItem, if_neg (serialize_ne_nil hz h)]

/-- The item read back decodes to `n` with a size limit of `k` bytes, for `|n| < 2^(8k-1)`.
Source: `src/script/script.h` `CScriptNum::CScriptNum`, `CScriptNum::set_vch`
Kind: L -/
theorem ofBytes_pushedInt64Item {n : Int} {k : Nat} (hk : 1 ≤ k) (hk8 : k ≤ 8)
    (h : n.natAbs < 128 * 256 ^ (k - 1)) :
    CScriptNum.ofBytes (pushedInt64Item n) false k = .ok ⟨n⟩ := by
  have h63 : n.natAbs < 2 ^ 63 := by
    have : 128 * 256 ^ (k - 1) ≤ 128 * 256 ^ 7 :=
      Nat.mul_le_mul_left _ (Nat.pow_le_pow_right (by decide) (by omega))
    have h7 : 128 * 256 ^ 7 = 2 ^ 63 := by decide
    omega
  unfold pushedInt64Item
  by_cases hz : n = 0
  · subst hz
    simp [CScriptNum.ofBytes, setVch]
    omega
  by_cases hsmall : 1 ≤ n ∧ n ≤ 16
  · rw [if_neg hz, if_pos hsmall]
    obtain ⟨m, rfl⟩ := Int.eq_ofNat_of_zero_le (by omega : 0 ≤ n)
    have hm : m < 128 := by omega
    have hb : (UInt8.ofNat (m : Int).toNat).toNat = m := by
      rw [UInt8.toNat_ofNat', Int.toNat_natCast]
      omega
    have hset := @setVch_append_of_lt [] (UInt8.ofNat (m : Int).toNat) (by omega)
    rw [List.nil_append] at hset
    simp only [CScriptNum.ofBytes, List.length_singleton, Bool.false_eq_true, false_and, if_false]
    rw [if_neg (by omega), hset]
    simp
    omega
  · rw [if_neg hz, if_neg hsmall]
    have hlen : (CScriptNum.serialize n).length ≤ k :=
      (serialize_length_le_iff h63 hk).2 h
    simp only [CScriptNum.ofBytes, Bool.false_eq_true, false_and, if_false]
    rw [if_neg (by omega), setVch_serialize h63]

/-- A number whose serialization is longer than `k` bytes does not decode with a limit of `k`.
Source: `src/script/script.h` `CScriptNum::CScriptNum`
Kind: L -/
theorem ofBytes_serialize_eq_error {n : Int} (h : n.natAbs < 2 ^ 63) {k : Nat} (hk : 1 ≤ k)
    (hn : 128 * 256 ^ (k - 1) ≤ n.natAbs) :
    CScriptNum.ofBytes (CScriptNum.serialize n) false k =
      .error (.raise "script number overflow") := by
  have hlen : k < (CScriptNum.serialize n).length := by
    have := (serialize_length_le_iff h hk).not.2 (by omega)
    omega
  exact CScriptNum.ofBytes_eq_error.2 ⟨hlen, rfl⟩

/-- A number whose item is longer than `k` bytes does not decode with a limit of `k`.
Source: `src/script/script.h` `CScriptNum::CScriptNum`
Kind: L -/
theorem ofBytes_pushedInt64Item_eq_error {n : Int} (h : n.natAbs < 2 ^ 63) {k : Nat} (hk : 1 ≤ k)
    (hn : 128 * 256 ^ (k - 1) ≤ n.natAbs) :
    CScriptNum.ofBytes (pushedInt64Item n) false k = .error (.raise "script number overflow") := by
  have h128 : 128 ≤ 128 * 256 ^ (k - 1) := Nat.le_mul_of_pos_right _ (Nat.pow_pos (by decide))
  rw [pushedInt64Item, if_neg (by omega), if_neg (by omega)]
  exact ofBytes_serialize_eq_error h hk hn

/-- An unsigned number below `2^31` decodes with the default limit.
Source: `src/script/script.h` `CScriptNum::CScriptNum`
Kind: L -/
theorem ofBytes_natCast_of_lt {n : Nat} (h : n < 2 ^ 31) :
    CScriptNum.ofBytes (pushedInt64Item n) false nDefaultMaxNumSize = .ok ⟨n⟩ :=
  ofBytes_pushedInt64Item (by decide) (by decide) (by simp only [nDefaultMaxNumSize]; omega)

/-- An unsigned 32-bit number of `2^31` or more takes five bytes, one more than the default
limit.
Source: `src/script/script.h` `CScriptNum::CScriptNum`, `CScriptNum::serialize`
Kind: L -/
theorem ofBytes_natCast_of_ge {n : Nat} (h : 2 ^ 31 ≤ n) (h' : n < 2 ^ 32) :
    CScriptNum.ofBytes (pushedInt64Item n) false nDefaultMaxNumSize =
      .error (.raise "script number overflow") :=
  ofBytes_pushedInt64Item_eq_error (by simp; omega) (by decide)
    (by simp only [nDefaultMaxNumSize]; omega)

/-- `getint()` keeps a value of `int` range.
Source: `src/script/script.h` `CScriptNum::getint`
Kind: L -/
theorem CScriptNum.getint_of_le {v : Int} (h1 : -2147483648 ≤ v) (h2 : v ≤ 2147483647) :
    (⟨v⟩ : CScriptNum).getint = v := by
  unfold CScriptNum.getint
  dsimp only
  split_ifs <;> omega

/-- The one-byte items of the structured header and the class numbers.
Source: `src/script/script.h` `CScriptNum::set_vch`
Kind: L -/
theorem ofBytes_small :
    CScriptNum.ofBytes [0] false nDefaultMaxNumSize = .ok ⟨0⟩ ∧
      CScriptNum.ofBytes [1] false nDefaultMaxNumSize = .ok ⟨1⟩ ∧
      CScriptNum.ofBytes [2] false nDefaultMaxNumSize = .ok ⟨2⟩ := by
  decide

/-! ## The `ParseOpReturn` loop on chunks -/

/-- A nonempty piece of script that `ParseDataItem` reads as the data item `item`, whatever
follows it.
Source: `src/script/standard.cpp` `ParseDataItem`
Kind: S -/
def ReadsBack (chunk item : List UInt8) : Prop :=
  chunk ≠ [] ∧ ∀ rest, parseDataItem (chunk ++ rest) = some (item, rest)

/-- Source: `src/script/standard.cpp` `ParseDataItem`. Kind: L -/
theorem readsBack_pushBytes {b : List UInt8} (hb : b.length < 2 ^ 32) :
    ReadsBack (pushBytes b) (pushedItem b) :=
  ⟨by simpa using pushBytes_append_ne_nil b [], parseDataItem_pushBytes hb⟩

/-- Source: `src/script/standard.cpp` `ParseDataItem`, `src/script/script.h` `push_int64`.
Kind: L -/
theorem readsBack_pushInt64 {n : Int} (hn : n ≠ -1) (h : n.natAbs < 2 ^ 63) :
    ReadsBack (pushInt64 n) (pushedInt64Item n) := by
  refine ⟨fun hnil => ?_, parseDataItem_pushInt64 hn h⟩
  have := parseDataItem_pushInt64 hn h []
  rw [hnil] at this
  cases this

/-- A script made of chunks that `ParseDataItem` reads one at a time is read item by item.
Source: `src/script/standard.cpp` `ParseOpReturn`, `ParseDataItem`
Kind: L -/
theorem parseItems_flatMap : ∀ (chunks : List (List UInt8 × List UInt8)),
    (∀ c ∈ chunks, ReadsBack c.1 c.2) →
      parseItems (chunks.flatMap Prod.fst) = (chunks.map Prod.snd, true)
  | [], _ => parseItems_nil
  | c :: chunks, h => by
    obtain ⟨hne, hread⟩ := h c List.mem_cons_self
    have hne' : c.1 ++ chunks.flatMap Prod.fst ≠ [] := by simp [hne]
    rw [List.flatMap_cons, parseItems_of_parseDataItem hne' (hread _),
      parseItems_flatMap chunks fun c' h' => h c' (List.mem_cons_of_mem _ h')]
    rfl

/-- **`Solver` classifies a structured OP_RETURN of data items with a version-1 header of a known
data class as `TX_STRUCT_DATA`, with the items as its solutions.**
Source: `src/script/standard.cpp` `Solver`, `ParseOpReturn`
Kind: L -/
theorem solver_structured {body : List UInt8} {v cl : List UInt8} {items : List (List UInt8)}
    (hitems : parseItems body = (v :: cl :: items, true))
    (hv : CScriptNum.ofBytes v false nDefaultMaxNumSize = .ok ⟨1⟩)
    (hcl : CScriptNum.ofBytes cl false nDefaultMaxNumSize = .ok ⟨0⟩) :
    solver (opReturn :: opStruct :: body) = .ok ⟨true, some .txStructData, v :: cl :: items⟩ := by
  have hpar : parseOpReturn (opReturn :: opStruct :: body) = .ok (true, v :: cl :: items) := by
    simp only [parseOpReturn, ne_eq, not_true_eq_false, if_false, List.head?_cons, reduceCtorEq,
      decide_true, if_true, List.tail_cons, hitems, hv, except_ok_bind, hcl]
    rfl
  unfold solver
  rw [isPayToScriptHash_of_head _ (by decide), isWitnessProgram_of_head _ (by decide) (by decide)]
  simp only [Bool.false_eq_true, if_false, List.head?_cons, List.tail_cons, isPushOnly_opStruct,
    if_true]
  rw [if_pos ⟨by simp, rfl⟩, hpar]
  rfl

end BwsCoin.Script
