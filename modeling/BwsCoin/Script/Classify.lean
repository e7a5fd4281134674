import BwsCoin.Stake.StakeTx

/-!
# Classifying outputs and transactions

What `Solver` and `ParseTxClass` do on scripts built from pushes (`pushBytes`, the encoding of
`CScript::operator<<`), and how they can fail.

* `getOp2_pushBytes`, `parseItems_flatMap_pushBytes`: a push is read back by `GetOp2` and by
  `ParseDataItem` (which reads an empty push, `OP_0`, as the item `0`).
* `solver_classic_opReturn`: `OP_RETURN` followed by pushes is `TX_NULL_DATA` with exactly the
  pushed items.
* `solver_throws_on_overlong_struct_version`: `OP_RETURN OP_STRUCT` followed by pushes whose
  first item is longer than 4 bytes makes `Solver`, and `ParseTxClass` on a transaction with
  that declaration output, throw `scriptnum_error`: `ParseOpReturn` decodes the version with
  `CScriptNum(vSolutionsRet[0], false)` and its default 4-byte limit, and no caller catches.
* `classification_errors`: the script-number overflow is the only way either can fail, and
  `Solver` fails so only on structured OP_RETURN scripts.
* `extractDestination_getScriptForDestination`: the P2PKH and P2SH scripts of a key or script id
  are recognised, and `ExtractDestination` reads the id back.
-/

namespace BwsCoin.Script

open Stake

/-! ## Pushes read back -/

/-- A push opcode whose size field names the data that follows reads it.
Source: `src/script/script.h` `CScript::GetOp2`
Kind: L -/
theorem getOp2_of_pushSize {opcode : UInt8} {pc b rest : List UInt8} (h : opcode ≤ opPushdata4)
    (hs : pushSize opcode pc = some (b.length, b ++ rest)) :
    getOp2 (opcode :: pc) = ⟨true, opcode, b, rest⟩ := by
  simp only [getOp2, if_pos h, hs, List.length_append]
  rw [if_neg (by omega), List.take_left' rfl, List.drop_left' rfl]

/-- `GetOp2` reads back every push of fewer than `2^32` bytes, whose opcode is at most
`OP_PUSHDATA4` and, for nonempty data, not `OP_0`.
Source: `src/script/script.h` `CScript::operator<<`, `CScript::GetOp2`
Kind: L -/
theorem getOp2_pushBytes {b : List UInt8} (hb : b.length < 2 ^ 32) (rest : List UInt8) :
    ∃ opcode, opcode ≤ opPushdata4 ∧ (b ≠ [] → op0 < opcode) ∧
      pushBytes b ++ rest = opcode :: (pushBytes b ++ rest).tail ∧
      getOp2 (pushBytes b ++ rest) = ⟨true, opcode, b, rest⟩ := by
  unfold pushBytes
  split_ifs with h₁ h₂ h₃
  · -- a direct push: the size is the opcode
    have hsz : (UInt8.ofNat b.length).toNat = b.length := by
      rw [UInt8.toNat_ofNat']; simp [opPushdata1] at h₁; omega
    refine ⟨UInt8.ofNat b.length, ?_, ?_, rfl, ?_⟩
    · rw [UInt8.le_iff_toNat_le, hsz]; simp [opPushdata1, opPushdata4] at h₁ ⊢; omega
    · intro hne
      rw [UInt8.lt_iff_toNat_lt, hsz]
      simp [op0]
      exact List.length_pos_iff.2 hne
    · apply getOp2_of_pushSize
      · rw [UInt8.le_iff_toNat_le, hsz]; simp [opPushdata1, opPushdata4] at h₁ ⊢; omega
      · unfold pushSize
        rw [if_pos (by rw [UInt8.lt_iff_toNat_lt, hsz]; exact h₁), hsz]
        rfl
  · -- one size byte
    refine ⟨opPushdata1, by decide, fun _ => by decide, rfl, getOp2_of_pushSize (by decide) ?_⟩
    unfold pushSize
    rw [if_neg (by decide), if_pos rfl]
    simp only [List.append_eq, List.cons_append, List.nil_append, UInt8.toNat_ofNat']
    rw [Nat.mod_eq_of_lt (by omega)]
  · -- two size bytes
    refine ⟨opPushdata2, by decide, fun _ => by decide, rfl, getOp2_of_pushSize (by decide) ?_⟩
    unfold pushSize
    rw [if_neg (by decide), if_neg (by decide), if_pos rfl]
    simp only [writeLE16, readLE16, List.append_eq, List.cons_append, List.nil_append,
      UInt8.toNat_ofNat']
    congr 2
    omega
  · -- four size bytes
    refine ⟨opPushdata4, by decide, fun _ => by decide, rfl, getOp2_of_pushSize (by decide) ?_⟩
    unfold pushSize
    rw [if_neg (by decide), if_neg (by decide), if_neg (by decide)]
    simp only [writeLE32, readLE32, List.append_eq, List.cons_append, List.nil_append,
      UInt8.toNat_ofNat']
    congr 2
    omega

/-- The item `ParseDataItem` reads from a push of `b`: `b`, except that the empty push `OP_0`
reads as the one byte `0`.
Source: `src/script/standard.cpp` `ParseDataItem`
Kind: D -/
def pushedItem (b : List UInt8) : List UInt8 := if b = [] then [0] else b

/-- `ParseDataItem` reads a push back.
Source: `src/script/standard.cpp` `ParseDataItem`
Kind: L -/
theorem parseDataItem_pushBytes {b : List UInt8} (hb : b.length < 2 ^ 32) (rest : List UInt8) :
    parseDataItem (pushBytes b ++ rest) = some (pushedItem b, rest) := by
  by_cases hne : b = []
  · subst hne
    rfl
  obtain ⟨opcode, hle, hpos, heq, hget⟩ := getOp2_pushBytes hb rest
  have hlt : opcode < op1 := by
    rw [UInt8.le_iff_toNat_le] at hle
    rw [UInt8.lt_iff_toNat_lt]
    exact lt_of_le_of_lt hle (by decide)
  have hne0 : opcode ≠ op0 := fun h => by
    have hp := hpos hne
    rw [h, UInt8.lt_iff_toNat_lt] at hp
    omega
  have hsmall : ¬ (op1 ≤ opcode ∧ opcode ≤ op16) := fun h => by
    rw [UInt8.le_iff_toNat_le] at h
    rw [UInt8.lt_iff_toNat_lt] at hlt
    omega
  rw [heq]
  simp only [parseDataItem]
  rw [if_neg hne0, if_neg hsmall, ← heq, hget, if_pos ⟨rfl, hle⟩, pushedItem, if_neg hne]

/-- Source: none: infrastructure. Kind: L -/
theorem pushBytes_append_ne_nil (b rest : List UInt8) : pushBytes b ++ rest ≠ [] := by
  unfold pushBytes
  split_ifs <;> simp

/-- Source: `src/script/standard.cpp` `ParseOpReturn`. Kind: L -/
theorem parseItems_nil : parseItems [] = ([], true) := by
  rw [parseItems, if_pos rfl]

/-- One turn of the `ParseOpReturn` loop on a data item.
Source: `src/script/standard.cpp` `ParseOpReturn`
Kind: L -/
theorem parseItems_of_parseDataItem {it item rest : List UInt8} (hne : it ≠ [])
    (h : parseDataItem it = some (item, rest)) :
    parseItems it = (item :: (parseItems rest).1, (parseItems rest).2) := by
  rw [parseItems, if_neg hne]
  split
  · next item' rest' h' =>
    rw [h] at h'
    cases h'
    rfl
  · next h' =>
    rw [h] at h'
    cases h'

/-- The `ParseOpReturn` loop reads a sequence of pushes back, item by item.
Source: `src/script/standard.cpp` `ParseOpReturn`, `ParseDataItem`
Kind: L -/
theorem parseItems_flatMap_pushBytes : ∀ (items : List (List UInt8)),
    (∀ b ∈ items, b.length < 2 ^ 32) →
      parseItems (items.flatMap pushBytes) = (items.map pushedItem, true)
  | [], _ => parseItems_nil
  | b :: items, hsz => by
    rw [List.flatMap_cons, parseItems_of_parseDataItem (pushBytes_append_ne_nil _ _)
      (parseDataItem_pushBytes (hsz b List.mem_cons_self) _),
      parseItems_flatMap_pushBytes items fun b' h => hsz b' (List.mem_cons_of_mem _ h)]
    rfl

/-! ## The script predicates on OP_RETURN scripts -/

/-- Source: `src/script/script.cpp` `CScript::IsPushOnly`. Kind: L -/
theorem isPushOnly_nil : isPushOnly [] = true := by
  rw [isPushOnly, dif_pos rfl]

/-- `OP_STRUCT` is not a push, so a structured OP_RETURN is not push-only after `OP_RETURN`.
Source: `src/script/script.cpp` `CScript::IsPushOnly`
Kind: L -/
theorem isPushOnly_opStruct (rest : List UInt8) : isPushOnly (opStruct :: rest) = false := by
  rw [isPushOnly, dif_neg (List.cons_ne_nil _ _)]
  have : getOp2 (opStruct :: rest) = ⟨true, opStruct, [], rest⟩ := rfl
  rw [this]
  rfl

/-- A sequence of pushes is push-only.
Source: `src/script/script.cpp` `CScript::IsPushOnly`
Kind: L -/
theorem isPushOnly_flatMap_pushBytes : ∀ (items : List (List UInt8)),
    (∀ b ∈ items, b.length < 2 ^ 32) → isPushOnly (items.flatMap pushBytes) = true
  | [], _ => isPushOnly_nil
  | b :: items, hsz => by
    obtain ⟨opcode, hle, -, -, hget⟩ :=
      getOp2_pushBytes (hsz b List.mem_cons_self) (items.flatMap pushBytes)
    -- the opcode is at most `OP_PUSHDATA4`, below `OP_16`
    have hgt : ¬ opcode > op16 := by
      rw [UInt8.le_iff_toNat_le] at hle
      rw [gt_iff_lt, UInt8.lt_iff_toNat_lt]
      exact not_lt.2 (le_trans hle (by decide))
    rw [List.flatMap_cons, isPushOnly, dif_neg (pushBytes_append_ne_nil _ _), hget]
    simp only [not_true_eq_false, if_false, if_neg hgt]
    exact isPushOnly_flatMap_pushBytes items fun b' h => hsz b' (List.mem_cons_of_mem _ h)

/-- Source: `src/script/script.cpp` `CScript::IsPayToScriptHash`. Kind: L -/
theorem isPayToScriptHash_of_head {b0 : UInt8} (rest : List UInt8) (h : b0 ≠ opHash160) :
    isPayToScriptHash (b0 :: rest) = false := by
  unfold isPayToScriptHash
  simp [h]

/-- A script whose first byte is above `OP_16` is no witness program.
Source: `src/script/script.cpp` `CScript::IsWitnessProgram`
Kind: L -/
theorem isWitnessProgram_of_head {b0 : UInt8} (rest : List UInt8) (h0 : b0 ≠ op0)
    (h1 : op16 < b0) : isWitnessProgram (b0 :: rest) = none := by
  unfold isWitnessProgram
  split_ifs
  · rfl
  · cases rest with
    | nil => rfl
    | cons b1 program =>
      simp only
      rw [if_pos ⟨h0, Or.inr h1⟩]

/-! ## `Solver` on OP_RETURN scripts -/

/-- Source: `src/script/standard.cpp` `ParseOpReturn`. Kind: L -/
theorem parseOpReturn_classic (items : List (List UInt8)) (hsz : ∀ b ∈ items, b.length < 2 ^ 32) :
    parseOpReturn (opReturn :: items.flatMap pushBytes) = .ok (true, items.map pushedItem) := by
  cases items with
  | nil => rfl
  | cons b items =>
    obtain ⟨opcode, hle, -, heq, -⟩ :=
      getOp2_pushBytes (hsz b List.mem_cons_self) (items.flatMap pushBytes)
    -- the first push opcode is not `OP_STRUCT`
    have hns : opcode ≠ opStruct := fun h => by
      rw [h] at hle
      exact absurd hle (by decide)
    simp only [parseOpReturn, ne_eq, not_true_eq_false, if_false, List.flatMap_cons,
      if_neg (pushBytes_append_ne_nil _ _)]
    rw [heq]
    simp only [List.head?_cons, Option.some.injEq, hns, decide_false, Bool.false_eq_true,
      if_false]
    rw [← heq, ← List.flatMap_cons, parseItems_flatMap_pushBytes _ hsz]
    rfl

/-- **`Solver` classifies `OP_RETURN` followed by pushes as `TX_NULL_DATA`, with the pushed items
as its solutions.**
Source: `src/script/standard.cpp` `Solver`, `ParseOpReturn`, `ParseDataItem`;
`src/script/script.h` `CScript::operator<<`
Kind: T -/
theorem solver_classic_opReturn (items : List (List UInt8))
    (hsz : ∀ b ∈ items, b.length < 2 ^ 32) :
    solver (opReturn :: items.flatMap pushBytes) =
      .ok ⟨true, some .txNullData, items.map pushedItem⟩ := by
  unfold solver
  rw [isPayToScriptHash_of_head _ (by decide), isWitnessProgram_of_head _ (by decide) (by decide)]
  simp only [Bool.false_eq_true, if_false, List.head?_cons, List.tail_cons,
    isPushOnly_flatMap_pushBytes items hsz, if_true, parseOpReturn_classic items hsz]
  rfl

/-- The witness: two pushes, one of them empty.
Source: `src/script/standard.cpp` `Solver`
Kind: W -/
theorem solver_classic_opReturn_two_items :
    (∀ b ∈ [[0x01, 0x02], []], b.length < 2 ^ 32) ∧
      solver (opReturn :: [[0x01, 0x02], []].flatMap pushBytes) =
        .ok ⟨true, some .txNullData, [[0x01, 0x02], [0]]⟩ :=
  ⟨by decide, solver_classic_opReturn [[0x01, 0x02], []] (by decide)⟩

/-- A structured OP_RETURN whose `ParseOpReturn` throws makes `Solver` throw.
Source: `src/script/standard.cpp` `Solver`
Kind: L -/
theorem solver_of_parseOpReturn_error {tail : List UInt8} {e : Fault}
    (h : parseOpReturn (opReturn :: opStruct :: tail) = .error e) :
    solver (opReturn :: opStruct :: tail) = .error e := by
  unfold solver
  rw [isPayToScriptHash_of_head _ (by decide), isWitnessProgram_of_head _ (by decide) (by decide)]
  simp only [Bool.false_eq_true, if_false, List.head?_cons, List.tail_cons, isPushOnly_opStruct,
    if_true]
  rw [if_pos ⟨by simp, rfl⟩, h]
  rfl

/-- `ParseOpReturn` throws on a structured script of pushes whose first item is longer than
4 bytes.
Source: `src/script/standard.cpp` `ParseOpReturn`
Kind: L -/
theorem parseOpReturn_overlong_version {v cl : List UInt8} {rest : List (List UInt8)}
    (hv : 4 < v.length) (hsz : ∀ b ∈ v :: cl :: rest, b.length < 2 ^ 32) :
    parseOpReturn (opReturn :: opStruct :: (v :: cl :: rest).flatMap pushBytes) =
      .error (.raise "script number overflow") := by
  have hv' : pushedItem v = v := if_neg (List.ne_nil_of_length_pos (by omega))
  simp only [parseOpReturn, ne_eq, not_true_eq_false, if_false, List.head?_cons, List.tail_cons,
    reduceCtorEq, decide_true, if_true, parseItems_flatMap_pushBytes _ hsz, List.map_cons, hv']
  rw [(CScriptNum.ofBytes_eq_error.2 ⟨hv, rfl⟩ :
    CScriptNum.ofBytes v false nDefaultMaxNumSize = _)]
  rfl

/-! ## `ParseTxClass` on a structured declaration output -/

/-- When `Solver` throws on the declaration output, so does `ParseTxClass`.
Source: `src/stake/staketx.cpp` `ParseTxClass`, `ParseStakeData`
Kind: L -/
theorem parseTxClass_of_solver_error {tx : CTransaction} {out : CTxOut} {e : Fault}
    (h0 : tx.vout[0]? = some out) (hs : isStructuredDataTxout tx 0 = true)
    (he : solver out.scriptPubKey = .error e) : parseTxClass tx = .error e := by
  have hpsd : parseStakeData tx txdeclOutputIndex .stakeTxDeclaration 4 = .error e := by
    unfold parseStakeData
    rw [show txdeclOutputIndex = 0 from rfl, h0]
    simp only [hs, not_true_eq_false, if_false, he]
    rfl
  unfold parseTxClass
  simp only [hpsd]
  rfl

/-- A structured OP_RETURN of at least one push passes `IsStructuredDataTxout`.
Source: `src/stake/staketx.cpp` `IsStructuredDataTxout`
Kind: L -/
theorem isStructuredDataTxout_of_pushes {tx : CTransaction} {out : CTxOut} (b tail : List UInt8)
    (h0 : tx.vout[0]? = some out)
    (hs : out.scriptPubKey = opReturn :: opStruct :: (pushBytes b ++ tail)) :
    isStructuredDataTxout tx 0 = true := by
  have hlen : 3 ≤ out.scriptPubKey.length := by
    rw [hs]
    have := List.length_pos_iff.2 (pushBytes_append_ne_nil b tail)
    simp only [List.length_cons]
    omega
  unfold isStructuredDataTxout
  rw [h0]
  simp only [hs, List.getElem?_cons_zero, List.getElem?_cons_succ, and_self, and_true] at hlen ⊢
  exact decide_eq_true hlen

/-- **A structured OP_RETURN whose version item is longer than 4 bytes makes `Solver` throw, and
`ParseTxClass` too when it is a transaction's declaration output.**
Source: `src/script/standard.cpp` `ParseOpReturn`, `Solver`; `src/stake/staketx.cpp`
`ParseStakeData`, `ParseTxClass`; `src/script/script.h` `CScriptNum::CScriptNum`
Kind: T -/
theorem solver_throws_on_overlong_struct_version (v cl : List UInt8) (rest : List (List UInt8))
    (hv : 4 < v.length) (hsz : ∀ b ∈ v :: cl :: rest, b.length < 2 ^ 32) :
    solver (opReturn :: opStruct :: (v :: cl :: rest).flatMap pushBytes) =
        .error (.raise "script number overflow") ∧
      ∀ tx : CTransaction, (tx.vout[0]?).map CTxOut.scriptPubKey =
          some (opReturn :: opStruct :: (v :: cl :: rest).flatMap pushBytes) →
        parseTxClass tx = .error (.raise "script number overflow") := by
  have hsolver := solver_of_parseOpReturn_error (parseOpReturn_overlong_version hv hsz)
  refine ⟨hsolver, fun tx htx => ?_⟩
  obtain ⟨out, h0, hout⟩ := Option.map_eq_some_iff.1 htx
  rw [← hout] at hsolver
  refine parseTxClass_of_solver_error h0
    (isStructuredDataTxout_of_pushes v ((cl :: rest).flatMap pushBytes) h0 ?_) hsolver
  rw [hout, List.flatMap_cons]

/-- The failing script `6a c0 05 0100000000 01 01`: a version item of five bytes.
Source: `src/script/standard.cpp` `Solver`, `src/script/script.h` `CScriptNum`
Kind: W -/
theorem solver_throws_on_version_0100000000 :
    4 < [1, 0, 0, 0, 0].length ∧ (∀ b ∈ [[1, 0, 0, 0, 0], [1], []], b.length < 2 ^ 32) ∧
      opReturn :: opStruct :: [[1, 0, 0, 0, 0], [1]].flatMap pushBytes =
        [0x6a, 0xc0, 0x05, 0x01, 0x00, 0x00, 0x00, 0x00, 0x01, 0x01] ∧
      solver (opReturn :: opStruct :: [[1, 0, 0, 0, 0], [1]].flatMap pushBytes) =
        .error (.raise "script number overflow") ∧
      parseTxClass ⟨[⟨0, opReturn :: opStruct :: [[1, 0, 0, 0, 0], [1]].flatMap pushBytes⟩]⟩ =
        .error (.raise "script number overflow") :=
  have h := solver_throws_on_overlong_struct_version [1, 0, 0, 0, 0] [1] [] (by decide)
    (by decide)
  ⟨by decide, by decide, by decide, h.1, h.2 _ rfl⟩

/-! ## How classification fails -/

/-- `ParseOpReturn` throws only the script-number overflow, and only on a structured script.
Source: `src/script/standard.cpp` `ParseOpReturn`
Kind: L -/
theorem parseOpReturn_eq_error {s : CScript} {e : Fault} (h : parseOpReturn s = .error e) :
    e = .raise "script number overflow" ∧ ∃ tail, s = opReturn :: opStruct :: tail := by
  match s with
  | [] => cases h
  | b0 :: rest =>
    simp only [parseOpReturn] at h
    split_ifs at h with hb hr hs hp
    -- only a structured script decodes script numbers
    obtain ⟨tail, rfl⟩ : ∃ tail, rest = opStruct :: tail := by
      cases rest with
      | nil => simp at hs
      | cons b tail => simp at hs; exact ⟨tail, by rw [hs]⟩
    refine ⟨?_, tail, by rw [not_not.1 hb]⟩
    split at h
    · rcases except_bind_eq_error.1 h with hv | ⟨version, -, hrest⟩
      · exact (CScriptNum.ofBytes_eq_error.1 hv).2
      · split_ifs at hrest
        rcases except_bind_eq_error.1 hrest with hc | ⟨cl, -, hok⟩
        · exact (CScriptNum.ofBytes_eq_error.1 hc).2
        · cases hok
    · cases h
/-- `Solver` throws only where `ParseOpReturn` does.
Source: `src/script/standard.cpp` `Solver`
Kind: L -/
theorem solver_eq_error {s : CScript} {e : Fault} (h : solver s = .error e) :
    e = .raise "script number overflow" ∧ ∃ tail, s = opReturn :: opStruct :: tail := by
  unfold solver at h
  by_cases hp : isPayToScriptHash s = true
  · rw [if_pos hp] at h
    cases h
  rw [if_neg hp] at h
  cases hw : isWitnessProgram s with
  | some wp =>
    obtain ⟨wv, prog⟩ := wp
    rw [hw] at h
    dsimp only at h
    split_ifs at h
  | none =>
    rw [hw] at h
    dsimp only at h
    -- both OP_RETURN branches fail only where `ParseOpReturn` does
    have hpar : parseOpReturn s = .error e := by
      split_ifs at h
      · rcases except_bind_eq_error.1 h with h' | ⟨_, -, hok⟩
        · exact h'
        · cases hok
      · rcases except_bind_eq_error.1 h with h' | ⟨⟨parsed, _⟩, -, hok⟩
        · exact h'
        · dsimp only at hok
          split_ifs at hok
    exact parseOpReturn_eq_error hpar
/-- A script-number decode followed by a step that fails only by overflow fails only by
overflow.
Source: `src/script/script.h` `CScriptNum::CScriptNum`
Kind: L -/
theorem ofBytes_bind_eq_error {α : Type} {vch : List UInt8} {n : Nat}
    {f : CScriptNum → Except Fault α} {e : Fault}
    (h : (CScriptNum.ofBytes vch false n >>= f) = .error e)
    (hf : ∀ x, f x = .error e → e = .raise "script number overflow") :
    e = .raise "script number overflow" := by
  rcases except_bind_eq_error.1 h with h' | ⟨x, -, hx⟩
  · exact (CScriptNum.ofBytes_eq_error.1 h').2
  · exact hf x hx

/-- `ParseStakeData` throws only the script-number overflow: in `Solver` or in its own three
header decodes.
Source: `src/stake/staketx.cpp` `ParseStakeData`
Kind: L -/
theorem parseStakeData_eq_error {tx : CTransaction} {i : Nat} {c : EStakeDataClass} {m : Nat}
    {e : Fault} (h : parseStakeData tx i c m = .error e) : e = .raise "script number overflow" := by
  unfold parseStakeData at h
  cases hv : tx.vout[i]? with
  | none =>
    rw [hv] at h
    cases h
  | some out =>
    rw [hv] at h
    dsimp only at h
    split_ifs at h
    rcases except_bind_eq_error.1 h with hs | ⟨r, -, hrest⟩
    · exact (solver_eq_error hs).1
    · -- the three header items are decoded in turn
      split_ifs at hrest
      · cases hrest
      · cases hrest
      · split at hrest
        · refine ofBytes_bind_eq_error hrest fun _ h₁ => ?_
          split_ifs at h₁
          · cases h₁
          refine ofBytes_bind_eq_error h₁ fun _ h₂ => ?_
          split_ifs at h₂
          · cases h₂
          refine ofBytes_bind_eq_error h₂ fun _ h₃ => ?_
          split_ifs at h₃ <;> cases h₃
        · cases hrest

/-- `ParseTxClass` throws only the script-number overflow.
Source: `src/stake/staketx.cpp` `ParseTxClass`
Kind: L -/
theorem parseTxClass_eq_error {tx : CTransaction} {e : Fault} (h : parseTxClass tx = .error e) :
    e = .raise "script number overflow" := by
  unfold parseTxClass at h
  dsimp only at h
  rcases except_bind_eq_error.1 h with hs | ⟨⟨ok, items⟩, -, hrest⟩
  · exact parseStakeData_eq_error hs
  · dsimp only at hrest
    split_ifs at hrest
    · split at hrest
      · exact ofBytes_bind_eq_error hrest fun _ h' => by cases h'
      · cases hrest
    · cases hrest

/-- **Classification fails only by the script-number overflow: `Solver` only on structured
OP_RETURN scripts, and `ParseTxClass` in `Solver` or in its own header decodes.**
Source: `src/script/standard.cpp` `Solver`, `ParseOpReturn`; `src/stake/staketx.cpp`
`ParseStakeData`, `ParseTxClass`
Kind: T -/
theorem classification_errors :
    (∀ (s : CScript) (e : Fault), solver s = .error e →
      e = .raise "script number overflow" ∧ ∃ tail, s = opReturn :: opStruct :: tail) ∧
    (∀ (tx : CTransaction) (e : Fault), parseTxClass tx = .error e →
      e = .raise "script number overflow") :=
  ⟨fun _ _ h => solver_eq_error h, fun _ _ h => parseTxClass_eq_error h⟩


/-! ## `Solver` on the scripts of destinations -/

/-- A twenty-byte push is its size byte and the bytes.
Source: `src/script/script.h` `CScript::operator<<`
Kind: L -/
theorem pushBytes_of_length_eq_20 {id : List UInt8} (h : id.length = 20) :
    pushBytes id = 0x14 :: id := by
  unfold pushBytes
  rw [if_pos (by rw [h]; decide), h]
  rfl

/-- An opcode above `OP_PUSHDATA4` carries no data.
Source: `src/script/script.h` `CScript::GetOp2`
Kind: L -/
theorem getOp2_of_gt (opcode : UInt8) (h : opPushdata4.toNat < opcode.toNat) (pc : List UInt8) :
    getOp2 (opcode :: pc) = ⟨true, opcode, [], pc⟩ := by
  have : ¬ opcode ≤ opPushdata4 := by
    rw [UInt8.le_iff_toNat_le]
    omega
  simp only [getOp2, if_neg this]

/-- A twenty-byte push reads back.
Source: `src/script/script.h` `CScript::GetOp2`
Kind: L -/
theorem getOp2_push20 {id : List UInt8} (h : id.length = 20) (rest : List UInt8) :
    getOp2 (0x14 :: (id ++ rest)) = ⟨true, 0x14, id, rest⟩ :=
  getOp2_of_pushSize (by decide) (by unfold pushSize; rw [if_pos (by decide), h]; rfl)

/-- One turn of the template loop on an opcode the template names literally.
Source: `src/script/standard.cpp` `Solver` (the template comparison loop)
Kind: L -/
theorem matchTemplate_same {opcode : UInt8} (hgt : opPushdata4.toNat < opcode.toNat)
    (hk : opcode ≠ opPubkeys) (h₁ : opcode ≠ opPubkey) (h₂ : opcode ≠ opPubkeyhash)
    (h₃ : opcode ≠ opSmallinteger) (pc1 pc2 : List UInt8) (sols : List (List UInt8)) :
    matchTemplate (opcode :: pc1) (opcode :: pc2) sols = matchTemplate pc1 pc2 sols := by
  rw [matchTemplate]
  simp [getOp2_of_gt _ hgt, hk, compareOpcodes, h₁, h₂, h₃]

/-- The turn that matches `OP_PUBKEYHASH` records the twenty bytes pushed.
Source: `src/script/standard.cpp` `Solver` (`opcode2 == OP_PUBKEYHASH`)
Kind: L -/
theorem matchTemplate_pubkeyhash {id : List UInt8} (h : id.length = 20) (pc1 pc2 : List UInt8)
    (sols : List (List UInt8)) :
    matchTemplate (0x14 :: (id ++ pc1)) (opPubkeyhash :: pc2) sols =
      matchTemplate pc1 pc2 (sols ++ [id]) := by
  rw [matchTemplate]
  simp [getOp2_push20 h, getOp2_of_gt opPubkeyhash (by decide), compareOpcodes, h,
    show opPubkeyhash ≠ opPubkeys by decide, show opPubkeyhash ≠ opPubkey by decide]

/-- Source: `src/script/standard.cpp` `Solver` (both ends reached). Kind: L -/
theorem matchTemplate_nil (sols : List (List UInt8)) : matchTemplate [] [] sols = some sols := by
  rw [matchTemplate]
  simp

/-- `Solver` recognises a P2PKH script by its template, with the key id as solution.
Source: `src/script/standard.cpp` `Solver`, `CScriptVisitor`
Kind: L -/
theorem solver_getScriptForDestination_keyID {id : List UInt8} (h : id.length = 20) :
    solver (getScriptForDestination (.keyID id)) = .ok ⟨true, some .txPubkeyhash, [id]⟩ := by
  have hs : getScriptForDestination (.keyID id) =
      opDup :: opHash160 :: 0x14 :: (id ++ [opEqualverify, opChecksig]) := by
    simp [getScriptForDestination, pushBytes_of_length_eq_20 h]
  -- the pay-to-pubkey template breaks at once: `OP_DUP` pushes no public key
  have hpk : matchTemplate (getScriptForDestination (.keyID id)) [opPubkey, opChecksig] [] =
      none := by
    rw [hs, matchTemplate]
    simp [getOp2_of_gt opDup (by decide), getOp2_of_gt opPubkey (by decide),
      compareOpcodes, show opPubkey ≠ opPubkeys by decide]
  have hpkh : matchTemplate (getScriptForDestination (.keyID id))
      [opDup, opHash160, opPubkeyhash, opEqualverify, opChecksig] [] = some [id] := by
    rw [hs, matchTemplate_same (by decide) (by decide) (by decide) (by decide) (by decide),
      matchTemplate_same (by decide) (by decide) (by decide) (by decide) (by decide),
      matchTemplate_pubkeyhash h,
      matchTemplate_same (by decide) (by decide) (by decide) (by decide) (by decide),
      matchTemplate_same (by decide) (by decide) (by decide) (by decide) (by decide),
      matchTemplate_nil]
    rfl
  have hscan : scanTemplates (getScriptForDestination (.keyID id)) mTemplates =
      some (true, .txPubkeyhash, [id]) := by
    simp [mTemplates, scanTemplates, hpk, hpkh]
  rw [solver, hs, isPayToScriptHash_of_head _ (by decide),
    isWitnessProgram_of_head _ (by decide) (by decide), ← hs, hscan]
  simp [hs, show opDup ≠ opReturn by decide]

/-- `Solver` recognises a P2SH script by its shape, with the script id as solution.
Source: `src/script/standard.cpp` `Solver`, `CScriptVisitor`
Kind: L -/
theorem solver_getScriptForDestination_scriptID {id : List UInt8} (h : id.length = 20) :
    solver (getScriptForDestination (.scriptID id)) = .ok ⟨true, some .txScripthash, [id]⟩ := by
  have hs : getScriptForDestination (.scriptID id) = opHash160 :: 0x14 :: (id ++ [opEqual]) := by
    simp [getScriptForDestination, pushBytes_of_length_eq_20 h]
  have hp2sh : isPayToScriptHash (getScriptForDestination (.scriptID id)) = true := by
    rw [hs]
    simp [isPayToScriptHash, h]
  rw [solver, if_pos hp2sh, hs]
  simp [List.take_left' h]

/-- `ExtractDestination` reads back the destination of the script `GetScriptForDestination`
builds for a key or script id.
Source: `src/script/standard.cpp` `ExtractDestination`, `GetScriptForDestination`
Kind: L -/
theorem extractDestination_getScriptForDestination (hash160 : List UInt8 → List UInt8)
    {d : CTxDestination} (hd : ∃ id, id.length = 20 ∧ (d = .keyID id ∨ d = .scriptID id)) :
    extractDestination hash160 (getScriptForDestination d) = .ok (some d) := by
  obtain ⟨id, hid, rfl | rfl⟩ := hd
  · simp [extractDestination, solver_getScriptForDestination_keyID hid]
  · simp [extractDestination, solver_getScriptForDestination_scriptID hid]

end BwsCoin.Script
