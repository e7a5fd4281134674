import BwsCoin.Script.Standard

/-!
# Stake transactions: the declaration output and the transaction class

A stake transaction declares itself in its output 0 (`txdeclOutputIndex`), a structured
OP_RETURN whose data items are `structVersion`, `dataClass`, `stakeDataClass` and, for a
declaration, `txClass` (`src/stake/staketx.h`). `ParseStakeData` checks the header through
`Solver` and decodes the three header items as script numbers; `ParseTxClass` decodes the
fourth, or answers `TX_Regular` when the header is not a stake declaration.
-/

namespace BwsCoin.Stake

open Script

/-- A transaction output: its value and its script.
Source: `src/primitives/transaction.h` `CTxOut`
Kind: D -/
structure CTxOut where
  nValue : Int
  scriptPubKey : CScript
  deriving DecidableEq, Repr

/-- A transaction, by the outputs the modelled functions read.
Source: `src/primitives/transaction.h` `CTransaction`
Kind: D
Fidelity: exact on `vout`; the inputs, version and lock time are read by no modelled function -/
structure CTransaction where
  vout : List CTxOut
  deriving DecidableEq, Repr

/-- `ETxClass`: the four named classes, and the integer a cast from a script number gives
otherwise.
Source: `src/stake/staketx.h` `enum ETxClass`
Kind: D -/
inductive ETxClass where
  | txRegular
  | txBuyTicket
  | txVote
  | txRevokeTicket
  | unnamed (n : Int)
  deriving DecidableEq, Repr

/-- `(ETxClass) n`.
Source: `src/stake/staketx.cpp` `ParseTxClass` (the cast)
Kind: D -/
def ETxClass.ofInt : Int → ETxClass
  | 0 => .txRegular
  | 1 => .txBuyTicket
  | 2 => .txVote
  | 3 => .txRevokeTicket
  | n => .unnamed n

/-- `EStakeDataClass`.
Source: `src/stake/staketx.h` `enum EStakeDataClass`
Kind: D -/
inductive EStakeDataClass where
  | stakeTxDeclaration
  | stakeTicketContribution
  deriving DecidableEq, Repr

/-- The value of an `EStakeDataClass`. Source: `src/stake/staketx.h`. Kind: D -/
def EStakeDataClass.toInt : EStakeDataClass → Int
  | .stakeTxDeclaration => 0
  | .stakeTicketContribution => 1

/-- `CLASS_Staking`. Source: `src/script/bws_data_classifier.h` `enum EDataClass`. Kind: D -/
def classStaking : Int := 0

/-- Source: `src/stake/staketx.h` `txdeclOutputIndex`. Kind: D -/
def txdeclOutputIndex : Nat := 0

/-- `IsStructuredDataTxout(tx, txoutIndex)`: `OP_RETURN OP_STRUCT` and at least a version byte.
Source: `src/stake/staketx.cpp` `IsStructuredDataTxout`
Kind: D -/
def isStructuredDataTxout (tx : CTransaction) (txoutIndex : Nat) : Bool :=
  match tx.vout[txoutIndex]? with
  | none => false
  | some out =>
    decide (3 ≤ out.scriptPubKey.length ∧ out.scriptPubKey[0]? = some opReturn ∧
      out.scriptPubKey[1]? = some opStruct)

/-- `ParseStakeData(tx, txoutIndex, eStakeData, minItems, items)`: the result and `items` as
`Solver` left them. The output must be structured data with a version-1 staking header of the
requested stake data class; the three header items are script numbers of at most 4 bytes.
Source: `src/stake/staketx.cpp` `ParseStakeData`
Kind: D
Fidelity: exact -/
def parseStakeData (tx : CTransaction) (txoutIndex : Nat) (eStakeData : EStakeDataClass)
    (minItems : Nat) : Except Fault (Bool × List (List UInt8)) :=
  match tx.vout[txoutIndex]? with
  | none => .ok (false, [])
  | some out =>
    if ¬ isStructuredDataTxout tx txoutIndex then .ok (false, [])
    else do
      let r ← solver out.scriptPubKey
      let items := r.vSolutionsRet
      if ¬ r.ok ∨ r.typeRet ≠ some .txStructData then return (false, items)
      -- structVersion, dataClass, stakeDataClass
      if items.length < 3 ∨ items.length < minItems then return (false, items)
      match items with
      | structVersion :: dataClass :: stakeDataClass :: _ =>
        let structVersion ← CScriptNum.ofBytes structVersion false nDefaultMaxNumSize
        if structVersion.getint ≠ 1 then return (false, items)
        let eDataClass ← CScriptNum.ofBytes dataClass false nDefaultMaxNumSize
        if eDataClass.getint ≠ classStaking then return (false, items)
        let eStakeDataClass ← CScriptNum.ofBytes stakeDataClass false nDefaultMaxNumSize
        if eStakeDataClass.getint ≠ eStakeData.toInt then return (false, items)
        return (true, items)
      | _ => return (false, items)

/-- `ParseTxClass(tx)`: the declared class of a stake declaration, else `TX_Regular`.
Source: `src/stake/staketx.cpp` `ParseTxClass`
Kind: D
Fidelity: exact; `items[txClassIndex]` exists whenever `ParseStakeData` accepts, since it then
has at least `minItems = 4` items -/
def parseTxClass (tx : CTransaction) : Except Fault ETxClass := do
  -- structHeaderVersion, dataClass, stakeDataClass, txClass
  let minItems := 4
  let (ok, items) ← parseStakeData tx txdeclOutputIndex .stakeTxDeclaration minItems
  if ¬ ok then return .txRegular
  match items with
  | _ :: _ :: _ :: txClass :: _ =>
    return ETxClass.ofInt (← CScriptNum.ofBytes txClass false nDefaultMaxNumSize).getint
  | _ => return .txRegular

/-- `IsStakeTx(eTxClass)`: a ticket purchase, a vote or a revocation.
Source: `src/stake/staketx.cpp` `IsStakeTx(ETxClass)`
Kind: D -/
def ETxClass.isStakeTx (eTxClass : ETxClass) : Bool :=
  eTxClass == .txBuyTicket || eTxClass == .txVote || eTxClass == .txRevokeTicket

/-- `IsStakeTx(tx)`: whether the class `ParseTxClass` reads is a stake class.
Source: `src/stake/staketx.cpp` `IsStakeTx(const CTransaction&)`
Kind: D -/
def isStakeTx (tx : CTransaction) : Except Fault Bool := ETxClass.isStakeTx <$> parseTxClass tx

/-! ## Amounts and ticket contributions -/

/-- `COIN`. Source: `src/amount.h`. Kind: D -/
def coin : Int := 100000000

/-- `MAX_MONEY`. Source: `src/amount.h`. Kind: D -/
def maxMoney : Int := 2100000000 * coin

/-- `MoneyRange(nValue)`. Source: `src/amount.h` `MoneyRange`. Kind: D -/
def moneyRange (nValue : Int) : Bool := decide (0 ≤ nValue) && decide (nValue ≤ maxMoney)

/-- Source: `src/amount.h` `MoneyRange`. Kind: L -/
theorem moneyRange_zero : moneyRange 0 = true := rfl

/-- Source: `src/amount.h` `MoneyRange`. Kind: L -/
@[simp] theorem moneyRange_iff {v : Int} : moneyRange v = true ↔ 0 ≤ v ∧ v ≤ maxMoney := by
  unfold moneyRange
  simp only [Bool.and_eq_true, decide_eq_true_eq]

/-- `TicketContribData`: a contributor's share of a ticket and where its remuneration goes.
The two fee limits are private members written only through `setVoteFeeLimit` and
`setRevocationFeeLimit`, which clamp into `[0, MAX_MONEY]`, and `rewardAddr` is a `uint160`;
the last three fields carry these facts.
Source: `src/stake/staketx.h` `struct TicketContribData`
Kind: D
Fidelity: exact on the six members -/
structure TicketContribData where
  nVersion : Int
  rewardAddr : List UInt8
  whichAddr : Int
  contributedAmount : Int
  voteFeeLimit : Int
  revocationFeeLimit : Int
  rewardAddr_length : rewardAddr.length = 20
  voteFeeLimit_mem : moneyRange voteFeeLimit = true
  revocationFeeLimit_mem : moneyRange revocationFeeLimit = true
  deriving DecidableEq, Repr

/-- A contribution with every number zero. The source's default constructor leaves the members
uninitialised; the model reads this value only at an index no caller produces.
Kind: D -/
instance : Inhabited TicketContribData :=
  ⟨⟨0, List.replicate 20 0, 0, 0, 0, 0, rfl, rfl, rfl⟩⟩

end BwsCoin.Stake
