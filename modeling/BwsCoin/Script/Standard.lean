import BwsCoin.Script.Script

/-!
# `Solver`: classifying an output script

`Solver` (`src/script/standard.cpp`) recognises pay-to-script-hash and witness programs by
shape, then the two OP_RETURN formats of this chain, then scans its three templates.

* Classic OP_RETURN: `OP_RETURN` and push opcodes only; standard whatever `ParseOpReturn` makes
  of the data (`TX_NULL_DATA`).
* Structured OP_RETURN: `OP_RETURN OP_STRUCT` and data items, of which the first two are
  decoded as script numbers (the version, which must be 1, and a data class); standard only when
  `ParseOpReturn` accepts it (`TX_STRUCT_DATA`).

Every loop of the source reads the script through `GetOp2`, which consumes a byte per turn
(`getOp2_pc_lt`); the model's loops are recursions on the bytes left.
-/

namespace BwsCoin.Script

/-- `txnouttype`.
Source: `src/script/standard.h` `enum txnouttype`
Kind: D -/
inductive TxnOutType where
  | txNonstandard
  | txPubkey
  | txPubkeyhash
  | txScripthash
  | txMultisig
  | txNullData
  | txWitnessV0Scripthash
  | txWitnessV0Keyhash
  | txStructData
  deriving DecidableEq, Repr

/-- `NUM_DATA_CLASSES`: the number of data classes of `enum EDataClass` (only `CLASS_Staking`).
Source: `src/script/bws_data_classifier.h` `enum EDataClass`
Kind: D -/
def numDataClasses : Int := 1

/-! ## `ParseOpReturn` -/

/-- `ParseDataItem(script, it, item)`: one data item at `it` and the iterator after it; `OP_0`
and `OP_1 .. OP_16` give the one-byte items `0` and `1 .. 16`.
Source: `src/script/standard.cpp` `ParseDataItem`
Kind: D
Fidelity: exact; the caller's loop guarantees `it < end()`, and on failure the caller reads
neither the item nor the iterator -/
def parseDataItem (it : List UInt8) : Option (List UInt8 × List UInt8) :=
  match it with
  | [] => none
  | opcode :: rest =>
    if opcode = op0 then some ([0], rest)
    else if op1 ≤ opcode ∧ opcode ≤ op16 then some ([opcode - op1 + 1], rest)
    else
      let r := getOp2 it
      if r.ok ∧ r.opcode ≤ opPushdata4 then some (r.vch, r.pc) else none

/-- `ParseDataItem` consumes a byte.
Source: `src/script/standard.cpp` `ParseDataItem`
Kind: L -/
theorem parseDataItem_length_lt {it item rest : List UInt8}
    (h : parseDataItem it = some (item, rest)) : rest.length < it.length := by
  match it, h with
  | opcode :: tail, h =>
    simp only [parseDataItem] at h
    split_ifs at h with h₁ h₂ h₃
    · cases h; simp
    · cases h; simp
    · cases h
      exact getOp2_pc_lt (List.cons_ne_nil opcode tail)

/-- The loop of `ParseOpReturn`: the data items parsed from `it` to the end, and whether every
instruction was a data item (on the first that is not, the loop returns with the items so far).
Source: `src/script/standard.cpp` `ParseOpReturn` (the `while (it < scriptPubKey.end())` loop)
Kind: D
Fidelity: exact -/
def parseItems (it : List UInt8) : List (List UInt8) × Bool :=
  if it = [] then ([], true)
  else match h : parseDataItem it with
    | some (item, rest) =>
      have : rest.length < it.length := parseDataItem_length_lt h
      let (items, ok) := parseItems rest
      (item :: items, ok)
    | none => ([], false)
termination_by it.length

/-- `ParseOpReturn(scriptPubKey, vSolutionsRet)`: the result and the items appended to
`vSolutionsRet`. A structured script must carry at least a version and a classifier; both are
read as script numbers with the default 4-byte limit, so an overlong one throws.
Source: `src/script/standard.cpp` `ParseOpReturn`
Kind: D
Fidelity: exact -/
def parseOpReturn (scriptPubKey : CScript) : Except Fault (Bool × List (List UInt8)) :=
  match scriptPubKey with
  | [] => .ok (false, [])
  | b0 :: rest =>
    if b0 ≠ opReturn then .ok (false, [])
    -- a single OP_RETURN opcode is a valid classic format
    else if rest = [] then .ok (true, [])
    else
      let isStruct := decide (rest.head? = some opStruct)
      let (vSolutionsRet, parsed) := parseItems (if isStruct then rest.tail else rest)
      if ¬ parsed then .ok (false, vSolutionsRet)
      else if isStruct then
        match vSolutionsRet with
        | v0 :: v1 :: _ => do
          let version ← CScriptNum.ofBytes v0 false nDefaultMaxNumSize
          if version.getint ≠ 1 then .ok (false, vSolutionsRet)
          else do
            let cl ← CScriptNum.ofBytes v1 false nDefaultMaxNumSize
            .ok (decide (0 ≤ cl.getint ∧ cl.getint < numDataClasses), vSolutionsRet)
        | _ => .ok (false, vSolutionsRet)
      else .ok (true, vSolutionsRet)

/-! ## The templates -/

/-- The templates of `Solver`, in the order of their keys in `mTemplates`.
Source: `src/script/standard.cpp` `Solver` (`mTemplates`)
Kind: D -/
def mTemplates : List (TxnOutType × CScript) :=
  [(.txPubkey, [opPubkey, opChecksig]),
    (.txPubkeyhash, [opDup, opHash160, opPubkeyhash, opEqualverify, opChecksig]),
    (.txMultisig, [opSmallinteger, opPubkeys, opSmallinteger, opCheckmultisig])]

/-- The `OP_PUBKEYS` loop: while the current data is a public key (33 to 65 bytes), record it
and read the next instruction; the last instruction read is returned with the iterator.
Source: `src/script/standard.cpp` `Solver` (`while (vch1.size() >= 33 && vch1.size() <= 65)`)
Kind: D
Fidelity: exact -/
def pushPubkeys (opcode1 : UInt8) (vch1 pc1 : List UInt8) (sols : List (List UInt8)) :
    UInt8 × List UInt8 × List UInt8 × List (List UInt8) :=
  if 33 ≤ vch1.length ∧ vch1.length ≤ 65 then
    if h : (getOp2 pc1).ok then
      have : (getOp2 pc1).pc.length < pc1.length := getOp2_pc_lt_of_ok h
      pushPubkeys (getOp2 pc1).opcode (getOp2 pc1).vch (getOp2 pc1).pc (sols ++ [vch1])
    else ((getOp2 pc1).opcode, (getOp2 pc1).vch, (getOp2 pc1).pc, sols ++ [vch1])
  else (opcode1, vch1, pc1, sols)
termination_by pc1.length

/-- One comparison of the template scan: the solutions after the instruction of the script
(`opcode1`, `vch1`) is matched against the template's (`opcode2`, `vch2`), or `none` to break.
Source: `src/script/standard.cpp` `Solver` (the `if (opcode2 == OP_PUBKEY) .. else if` chain)
Kind: D
Fidelity: exact -/
def compareOpcodes (opcode1 : UInt8) (vch1 : List UInt8) (opcode2 : UInt8) (vch2 : List UInt8)
    (sols : List (List UInt8)) : Option (List (List UInt8)) :=
  if opcode2 = opPubkey then
    if vch1.length < 33 ∨ vch1.length > 65 then none else some (sols ++ [vch1])
  else if opcode2 = opPubkeyhash then
    if vch1.length ≠ 20 then none else some (sols ++ [vch1])
  else if opcode2 = opSmallinteger then
    -- a single-byte small integer pushed onto vSolutions
    if opcode1 = op0 ∨ (op1 ≤ opcode1 ∧ opcode1 ≤ op16) then
      some (sols ++ [[UInt8.ofInt (decodeOpN opcode1)]])
    else none
  else if opcode1 ≠ opcode2 ∨ vch1 ≠ vch2 then none
  else some sols

/-- The `while (true)` loop matching the script `pc1` against the template `pc2`: the solutions
when both end together, `none` when the loop breaks.
Source: `src/script/standard.cpp` `Solver` (the template comparison loop)
Kind: D
Fidelity: exact; the loop consumes a template byte per turn -/
def matchTemplate (pc1 pc2 : List UInt8) (sols : List (List UInt8)) :
    Option (List (List UInt8)) :=
  if pc1 = [] ∧ pc2 = [] then some sols
  else if ¬ (getOp2 pc1).ok then none
  else if h2 : ¬ (getOp2 pc2).ok = true then none
  else if (getOp2 pc2).opcode = opPubkeys then
    let (opcode1, vch1, pc1', sols') :=
      pushPubkeys (getOp2 pc1).opcode (getOp2 pc1).vch (getOp2 pc1).pc sols
    if h3 : ¬ (getOp2 (getOp2 pc2).pc).ok = true then none
    else
      have : (getOp2 (getOp2 pc2).pc).pc.length < pc2.length :=
        lt_trans (getOp2_pc_lt_of_ok (not_not.1 h3)) (getOp2_pc_lt_of_ok (not_not.1 h2))
      match compareOpcodes opcode1 vch1 (getOp2 (getOp2 pc2).pc).opcode
          (getOp2 (getOp2 pc2).pc).vch sols' with
      | none => none
      | some sols'' => matchTemplate pc1' (getOp2 (getOp2 pc2).pc).pc sols''
  else
    have : (getOp2 pc2).pc.length < pc2.length := getOp2_pc_lt_of_ok (not_not.1 h2)
    match compareOpcodes (getOp2 pc1).opcode (getOp2 pc1).vch (getOp2 pc2).opcode
        (getOp2 pc2).vch sols with
    | none => none
    | some sols' => matchTemplate (getOp2 pc1).pc (getOp2 pc2).pc sols'
termination_by pc2.length

/-- The scan over the templates: the first that matches, with its solutions and whether it
passes the extra multisig checks (`Solver` returns `false` at once when it does not).
Source: `src/script/standard.cpp` `Solver` (the `for` loop over `mTemplates`)
Kind: D
Fidelity: exact; `front()[0]` and `back()[0]` read the two one-byte small integers every
multisig match records -/
def scanTemplates (script1 : CScript) :
    List (TxnOutType × CScript) → Option (Bool × TxnOutType × List (List UInt8))
  | [] => none
  | (t, script2) :: rest =>
    match matchTemplate script1 script2 [] with
    | none => scanTemplates script1 rest
    | some vSolutionsRet =>
      if t = .txMultisig then
        let m := ((vSolutionsRet.head?.bind List.head?).getD 0).toNat
        let n := ((vSolutionsRet.getLast?.bind List.head?).getD 0).toNat
        if m < 1 ∨ n < 1 ∨ m > n ∨ vSolutionsRet.length - 2 ≠ n then
          some (false, t, vSolutionsRet)
        else some (true, t, vSolutionsRet)
      else some (true, t, vSolutionsRet)

/-! ## `Solver` -/

/-- The result of `Solver(scriptPubKey, typeRet, vSolutionsRet)`: its value, `typeRet` (`none`
where `Solver` returns without writing it) and `vSolutionsRet`.
Source: `src/script/standard.cpp` `Solver`
Kind: D -/
structure SolverResult where
  ok : Bool
  typeRet : Option TxnOutType
  vSolutionsRet : List (List UInt8)
  deriving DecidableEq, Repr

/-- `Solver(scriptPubKey, typeRet, vSolutionsRet)`.
Source: `src/script/standard.cpp` `Solver`
Kind: D
Fidelity: exact -/
def solver (scriptPubKey : CScript) : Except Fault SolverResult :=
  -- pay-to-script-hash is always OP_HASH160 20 [20 byte hash] OP_EQUAL
  if isPayToScriptHash scriptPubKey then
    .ok ⟨true, some .txScripthash, [(scriptPubKey.drop 2).take 20]⟩
  else match isWitnessProgram scriptPubKey with
  | some (witnessversion, witnessprogram) =>
    if witnessversion = 0 ∧ witnessprogram.length = 20 then
      .ok ⟨true, some .txWitnessV0Keyhash, [witnessprogram]⟩
    else if witnessversion = 0 ∧ witnessprogram.length = 32 then
      .ok ⟨true, some .txWitnessV0Scripthash, [witnessprogram]⟩
    else .ok ⟨false, none, []⟩
  | none =>
    let scan : SolverResult :=
      match scanTemplates scriptPubKey mTemplates with
      | some (ok, t, vSolutionsRet) => ⟨ok, some t, vSolutionsRet⟩
      | none => ⟨false, some .txNonstandard, []⟩
    if scriptPubKey.head? = some opReturn then
      -- classic OP_RETURN is standard whether or not its data parses
      if isPushOnly scriptPubKey.tail then do
        let (_, vSolutionsRet) ← parseOpReturn scriptPubKey
        .ok ⟨true, some .txNullData, vSolutionsRet⟩
      -- structured OP_RETURN must be fully parsable
      else if 2 ≤ scriptPubKey.length ∧ scriptPubKey[1]? = some opStruct then do
        let (parsed, vSolutionsRet) ← parseOpReturn scriptPubKey
        if parsed then .ok ⟨true, some .txStructData, vSolutionsRet⟩ else .ok scan
      else .ok scan
    else .ok scan


/-! ## Destinations -/

/-- `CTxDestination`: no destination, a key id (`TX_PUBKEYHASH`) or a script id
(`TX_SCRIPTHASH`), each a `uint160`.
Source: `src/script/standard.h` `CTxDestination`
Kind: D -/
inductive CTxDestination where
  | noDestination
  | keyID (id : List UInt8)
  | scriptID (id : List UInt8)
  deriving DecidableEq, Repr

/-- `dest.which()`: the index of the alternative of the variant.
Source: `src/script/standard.h` `CTxDestination`
Kind: D -/
def CTxDestination.which : CTxDestination → Int
  | .noDestination => 0
  | .keyID _ => 1
  | .scriptID _ => 2

/-- `IsValidDestination(dest)`. Source: `src/script/standard.cpp`. Kind: D -/
def isValidDestination (dest : CTxDestination) : Bool := dest.which != 0

/-- `GetScriptForDestination(dest)`: P2PKH for a key id, P2SH for a script id, the empty script
for no destination.
Source: `src/script/standard.cpp` `CScriptVisitor`, `GetScriptForDestination`
Kind: D
Fidelity: exact -/
def getScriptForDestination : CTxDestination → CScript
  | .noDestination => []
  | .keyID id => [opDup, opHash160] ++ pushBytes id ++ [opEqualverify, opChecksig]
  | .scriptID id => [opHash160] ++ pushBytes id ++ [opEqual]

/-- `CPubKey::GetLen(chHeader)`: 33 for a compressed key, 65 for an uncompressed or hybrid one.
Source: `src/pubkey.h` `CPubKey::GetLen`
Kind: D -/
def pubKeyGetLen (chHeader : UInt8) : Nat :=
  if chHeader = 2 ∨ chHeader = 3 then 33
  else if chHeader = 4 ∨ chHeader = 6 ∨ chHeader = 7 then 65
  else 0

/-- `CPubKey(vch).IsValid()`: `Set` keeps the bytes only when their header announces their length,
and invalidates the key otherwise.
Source: `src/pubkey.h` `CPubKey::Set`, `CPubKey::IsValid`
Kind: D -/
def isValidPubKey (vch : List UInt8) : Bool :=
  match vch with
  | [] => false
  | chHeader :: _ => pubKeyGetLen chHeader != 0 && pubKeyGetLen chHeader == vch.length

/-- `ExtractDestination(scriptPubKey, addressRet)`: the destination, or `none` where it returns
false. `hash160` is `Hash160`, the key id of a public key, of which the model assumes nothing.
Source: `src/script/standard.cpp` `ExtractDestination`
Kind: D
Fidelity: exact; `vSolutions[0]` exists whenever `Solver` reports one of the three types read -/
def extractDestination (hash160 : List UInt8 → List UInt8) (scriptPubKey : CScript) :
    Except Fault (Option CTxDestination) :=
  solver scriptPubKey >>= fun r =>
    let vch := r.vSolutionsRet.headD []
    if ¬ r.ok then .ok none
    else if r.typeRet = some .txPubkey then
      .ok (if isValidPubKey vch then some (.keyID (hash160 vch)) else none)
    else if r.typeRet = some .txPubkeyhash then .ok (some (.keyID vch))
    else if r.typeRet = some .txScripthash then .ok (some (.scriptID vch))
    -- multisig has more than one address
    else .ok none

end BwsCoin.Script
