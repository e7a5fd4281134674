import BwsCoin.Primitives.Transaction
import BwsCoin.Policy.Dust

/-!
# Stake data: the scripts of declarations and contributions, and their parsers

A ticket purchase declares itself in output 0 and records each contribution in a structured
OP_RETURN output (`src/stake/staketx.cpp`). The writers `GetScriptFor...` append the data items
with `CScript::operator<<`; the readers go through `ParseStakeData`, which runs `Solver`, and then
decode each item as a script number, a `uint160` or a `uint256`.

* `parseTicketContrib`, `parseVote` — the readers, with the output parameter they write into as
  an argument and a result: each member is written as the source writes it, so that a reader
  that stops early leaves the members after it as they were;
* `parseTicketContribs` — the loop over the contribution outputs, with the four output
  parameters it accumulates into;
* `validateDataTxoutStructure`, `validateBuyTicketStructure` — the structure checks of a
  ticket purchase, which count and size the data items of the outputs but decode none of them.

A verdict is `Except String Unit`: the `reason` of a failed check, or success; a C++ exception or
a failed `assert` is the outer `Fault`.
-/

namespace BwsCoin.Stake

open Script Policy

/-! ## Indexes and limits -/

/-- Source: `src/stake/staketx.h` `ticketStakeOutputIndex`. Kind: D -/
def ticketStakeOutputIndex : Nat := 1

/-- Source: `src/stake/staketx.h` `ticketContribOutputIndex`. Kind: D -/
def ticketContribOutputIndex : Nat := 2

/-- Source: `src/stake/staketx.h` `ticketChangeOutputIndex`. Kind: D -/
def ticketChangeOutputIndex : Nat := 3

/-- The index of the first item after the header of a structured output.
Source: `src/stake/staketx.h` `txClassIndex`
Kind: D -/
def txClassIndex : Nat := 3

/-- `BUY_TICKET_MAX_INPUTS`. Source: `src/stake/staketx.h`. Kind: D -/
def buyTicketMaxInputs : Nat := 64

/-- `TX_BuyTicket` and `TX_Vote` as the integers the writers push.
Source: `src/stake/staketx.h` `enum ETxClass`
Kind: D -/
def ETxClass.toInt : ETxClass → Int
  | .txRegular => 0
  | .txBuyTicket => 1
  | .txVote => 2
  | .txRevokeTicket => 3
  | .unnamed n => n

/-! ## Output predicates -/

/-- `IsPaymentTxout(tx, txoutIndex)`: an output that can be spent.
Source: `src/stake/staketx.cpp` `IsPaymentTxout`
Kind: D -/
def isPaymentTxout (tx : CTransaction) (txoutIndex : Nat) : Bool :=
  match tx.vout[txoutIndex]? with
  | none => false
  | some out => !isUnspendable out.scriptPubKey

/-- `IsDataTxout(tx, txoutIndex)`: an output whose script starts with `OP_RETURN`.
Source: `src/stake/staketx.cpp` `IsDataTxout`
Kind: D -/
def isDataTxout (tx : CTransaction) (txoutIndex : Nat) : Bool :=
  match tx.vout[txoutIndex]? with
  | none => false
  | some out => decide (0 < out.scriptPubKey.length ∧ out.scriptPubKey[0]? = some opReturn)

/-! ## Structure checks -/

/-- The loop of `ValidateDataTxoutStructure` over the expected item sizes, from item `i` on: the
reason for the first item whose size is fixed (nonzero) and not met.
Source: `src/stake/staketx.cpp` `ValidateDataTxoutStructure` (the size loop)
Kind: D -/
def itemSizeError (txoutIndex : Nat) : Nat → List (List UInt8) → List Nat → Option String
  | i, item :: items, size :: sizes =>
    -- zero indicates a variable item size, so the size comparison is skipped
    if size = 0 then itemSizeError txoutIndex (i + 1) items sizes
    else if item.length ≠ size then
      some ("in output " ++ toString txoutIndex ++ ", data item " ++ toString i ++
        " expected size was " ++ toString size ++ " bytes, found " ++ toString item.length ++
        " bytes")
    else itemSizeError txoutIndex (i + 1) items sizes
  | _, _, _ => none

/-- `ValidateDataTxoutStructure(tx, txoutIndex, numExpectedItems, expectedItemSizes, pRetItems,
reason)`: the data items of a data output after its structured header, if there are
`numExpectedItems` of them with the expected sizes.
Source: `src/stake/staketx.cpp` `ValidateDataTxoutStructure`
Kind: D
Fidelity: exact; for a structured output that `Solver` accepts with only the version and the
class, `items.begin() + 3` is past the end of the items, which is undefined -/
def validateDataTxoutStructure (tx : CTransaction) (txoutIndex numExpectedItems : Nat)
    (expectedItemSizes : List Nat) : Except Fault (Except String (List (List UInt8))) :=
  match tx.vout[txoutIndex]? with
  | none => .ok (.error ("output " ++ toString txoutIndex ++ " not a data output"))
  | some out =>
    let isData := isDataTxout tx txoutIndex
    let isStruct := isStructuredDataTxout tx txoutIndex
    if ¬ isData ∧ ¬ isStruct then
      .ok (.error ("output " ++ toString txoutIndex ++ " not a data output"))
    else
      -- skip version, dataClass and stakeDataClass
      let offsetItems := if isStruct then txClassIndex else 0
      solver out.scriptPubKey >>= fun r =>
        if ¬ r.ok then .ok (.error ("couldn't parse output " ++ toString txoutIndex))
        else if r.vSolutionsRet.length < offsetItems then
          .error (.undefined "items.begin() + offsetItems past items.end()")
        else
          let resultItems := r.vSolutionsRet.drop offsetItems
          if resultItems.length ≠ numExpectedItems then
            .ok (.error ("in output " ++ toString txoutIndex ++ " expected " ++
              toString numExpectedItems ++ " data items, found " ++ toString resultItems.length))
          else match itemSizeError txoutIndex 0 resultItems expectedItemSizes with
            | some reason => .ok (.error reason)
            | none => .ok (.ok resultItems)

/-- `ValidateTxDeclStructure(tx, eTxClassExpected, numExpectedItems, expectedItemSizes,
reason)`: the declaration output has the expected items, the first of them the expected class.
Source: `src/stake/staketx.cpp` `ValidateTxDeclStructure`
Kind: D
Fidelity: exact; on a class mismatch the source returns `false` and leaves `reason` as the
caller's, which is empty at every caller -/
def validateTxDeclStructure (tx : CTransaction) (eTxClassExpected : ETxClass)
    (numExpectedItems : Nat) (expectedItemSizes : List Nat) : Except Fault (Except String Unit) :=
  validateDataTxoutStructure tx txdeclOutputIndex numExpectedItems expectedItemSizes >>= fun v =>
    match v with
    | .error reason => .ok (.error reason)
    -- the returned items begin with txClass
    | .ok (txClass :: _) =>
      CScriptNum.ofBytes txClass false nDefaultMaxNumSize >>= fun n =>
        if n.getint ≠ eTxClassExpected.toInt then .ok (.error "") else .ok (.ok ())
    | .ok [] => .ok (.error "")

/-- The checks of one output of a ticket purchase after the stake: an odd-indexed output is a
change payment, an even-indexed one a contribution with six data items, the second of them a
20-byte address hash.
Source: `src/stake/staketx.cpp` `ValidateBuyTicketStructure` (the loop body)
Kind: D -/
def validateBuyTicketOutput (tx : CTransaction) (txoutIndex : Nat) :
    Except Fault (Except String Unit) :=
  if txoutIndex % 2 = 1 then
    if ¬ isPaymentTxout tx txoutIndex then
      .ok (.error ("output " ++ toString txoutIndex ++ " (change) not a payment"))
    else .ok (.ok ())
  else
    -- version, 20-bytes address hash, addrType, contributed amount, vote fee limit,
    -- revocation fee limit
    validateDataTxoutStructure tx txoutIndex 6 [0, 20, 0, 0, 0, 0] >>= fun v =>
      match v with
      | .error reason => .ok (.error reason)
      | .ok _ => .ok (.ok ())

/-- The loop over the outputs after the stake; the first failure is the verdict.
Source: `src/stake/staketx.cpp` `ValidateBuyTicketStructure` (the output loop)
Kind: D -/
def validateBuyTicketOutputs (tx : CTransaction) : List Nat → Except Fault (Except String Unit)
  | [] => .ok (.ok ())
  | txoutIndex :: rest =>
    validateBuyTicketOutput tx txoutIndex >>= fun v =>
      match v with
      | .error reason => .ok (.error reason)
      | .ok () => validateBuyTicketOutputs tx rest

/-- `ValidateBuyTicketStructure(tx, reason)`: between one and `BUY_TICKET_MAX_INPUTS` inputs, a
declaration, a stake payment, and a contribution and a change payment for each input.
Source: `src/stake/staketx.cpp` `ValidateBuyTicketStructure`
Kind: D
Fidelity: exact -/
def validateBuyTicketStructure (tx : Primitives.CTransaction) : Except Fault (Except String Unit) :=
  let numInputs := tx.vin.length
  if numInputs = 0 then .ok (.error "transaction has no inputs")
  else if numInputs > buyTicketMaxInputs then
    .ok (.error ("transaction has " ++ toString numInputs ++ " inputs, maximum is " ++
      toString buyTicketMaxInputs))
  else
    let numExpectedOutputs := 1 + 1 + 2 * numInputs
    let numOutputs := tx.vout.length
    if numOutputs ≠ numExpectedOutputs then
      .ok (.error ("transaction has " ++ toString numOutputs ++ " outputs, expected " ++
        toString numExpectedOutputs))
    else
      -- TX_BuyTicket, version
      validateTxDeclStructure tx.outputs .txBuyTicket 2 [0, 0] >>= fun v =>
        match v with
        | .error reason => .ok (.error reason)
        | .ok () =>
          if ¬ isPaymentTxout tx.outputs ticketStakeOutputIndex then
            .ok (.error "output 0 (stake) not a payment")
          else validateBuyTicketOutputs tx.outputs
            (List.range' ticketContribOutputIndex (numOutputs - ticketContribOutputIndex))

/-! ## Ticket contributions -/

/-- The clamp of `setVoteFeeLimit` and `setRevocationFeeLimit`: into `[0, MAX_MONEY]`.
Source: `src/stake/staketx.h` `TicketContribData::setVoteFeeLimit`
Kind: D -/
def clampFeeLimit (feeLimit : Int) : Int := max 0 (min maxMoney feeLimit)

/-- Source: `src/stake/staketx.h` `TicketContribData::setVoteFeeLimit`. Kind: L -/
theorem moneyRange_clampFeeLimit (feeLimit : Int) : moneyRange (clampFeeLimit feeLimit) = true := by
  rw [moneyRange_iff, clampFeeLimit]
  constructor
  · exact le_max_left _ _
  · exact max_le (by decide) (min_le_left _ _)

/-- A fee limit in `[0, MAX_MONEY]` is kept as it is.
Source: `src/stake/staketx.h` `TicketContribData::setVoteFeeLimit`
Kind: L -/
theorem clampFeeLimit_of_moneyRange {feeLimit : Int} (h : moneyRange feeLimit = true) :
    clampFeeLimit feeLimit = feeLimit := by
  rw [moneyRange_iff] at h
  rw [clampFeeLimit, min_eq_right h.2, max_eq_right h.1]

/-- `setVoteFeeLimit(voteFeeLimit)`. Source: `src/stake/staketx.h`. Kind: D -/
def TicketContribData.setVoteFeeLimit (d : TicketContribData) (voteFeeLimit : Int) :
    TicketContribData :=
  { d with voteFeeLimit := clampFeeLimit voteFeeLimit,
           voteFeeLimit_mem := moneyRange_clampFeeLimit voteFeeLimit }

/-- `setRevocationFeeLimit(revocationFeeLimit)`. Source: `src/stake/staketx.h`. Kind: D -/
def TicketContribData.setRevocationFeeLimit (d : TicketContribData) (revocationFeeLimit : Int) :
    TicketContribData :=
  { d with revocationFeeLimit := clampFeeLimit revocationFeeLimit,
           revocationFeeLimit_mem := moneyRange_clampFeeLimit revocationFeeLimit }

/-- `GetScriptForStructuredData(eDataClass)`: `OP_RETURN OP_STRUCT`, version 1 and the class.
Source: `src/script/standard.cpp` `GetScriptForStructuredData`
Kind: D -/
def getScriptForStructuredData (eDataClass : Int) : CScript :=
  -- int nVersion = 1
  [opReturn, opStruct] ++ pushInt64 1 ++ pushInt64 eDataClass

/-- `GetScriptForTicketContrib(data)`.
Source: `src/stake/staketx.cpp` `GetScriptForTicketContrib`
Kind: D
Fidelity: exact; every member is pushed with `push_int64` but the address, which is pushed as
its 20 bytes -/
def getScriptForTicketContrib (data : TicketContribData) : CScript :=
  getScriptForStructuredData classStaking ++ pushInt64 EStakeDataClass.stakeTicketContribution.toInt
    ++ pushInt64 data.nVersion ++ pushBytes data.rewardAddr ++ pushInt64 data.whichAddr
    ++ pushInt64 data.contributedAmount ++ pushInt64 data.voteFeeLimit
    ++ pushInt64 data.revocationFeeLimit

/-- `ParseTicketContrib(tx, txoutIndex, data)`: the result, and `data` as the call leaves it.
Members are written one after the other; a fee limit out of range returns `false` with the
members before it written.
Source: `src/stake/staketx.cpp` `ParseTicketContrib`
Kind: D
Fidelity: exact; `uint160(vch)` asserts that the address item has 20 bytes -/
def parseTicketContrib (tx : CTransaction) (txoutIndex : Nat) (data : TicketContribData) :
    Except Fault (Bool × TicketContribData) := do
  -- structVersion, dataClass, stakeDataClass, contribVersion, rewardAddr, whichAddr,
  -- contribAmount, voteFeeLimit, revocationFeeLimit
  let numItems := 9
  let (ok, items) ← parseStakeData tx txoutIndex .stakeTicketContribution numItems
  if ¬ ok then return (false, data)
  match items with
  | _ :: _ :: _ :: contribVersion :: contribAddr :: contribAddrType :: contribAmount ::
      contribVoteFeeLimit :: contribRevocationFeeLimit :: _ =>
    let nVersion := (← CScriptNum.ofBytes contribVersion false nDefaultMaxNumSize).getint
    if h : contribAddr.length = 20 then
      let whichAddr := (← CScriptNum.ofBytes contribAddrType false nDefaultMaxNumSize).getint
      -- amounts may require more than the default 4 bytes for storing in script numbers
      let contributedAmount :=
        (← CScriptNum.ofBytes contribAmount false nMaxNumSizeForInt64).getint64
      let data := { data with
        nVersion := nVersion, rewardAddr := contribAddr, rewardAddr_length := h,
        whichAddr := whichAddr, contributedAmount := contributedAmount }
      let feeLimit := (← CScriptNum.ofBytes contribVoteFeeLimit false nMaxNumSizeForInt64).getint64
      if ¬ moneyRange feeLimit then return (false, data)
      let data := data.setVoteFeeLimit feeLimit
      let feeLimit :=
        (← CScriptNum.ofBytes contribRevocationFeeLimit false nMaxNumSizeForInt64).getint64
      if ¬ moneyRange feeLimit then return (false, data)
      return (true, data.setRevocationFeeLimit feeLimit)
    else throw (.abort "vch.size() == sizeof(data)")
  -- `ParseStakeData` accepts only with at least `numItems` items
  | _ => return (false, data)

/-- The output parameters of `ParseTicketContribs`: the contributions appended and the three
totals.
Source: `src/stake/staketx.cpp` `ParseTicketContribs`
Kind: D -/
structure TicketContribs where
  contributions : List TicketContribData
  totalContribution : Int
  totalVoteFeeLimit : Int
  totalRevocationFeeLimit : Int
  deriving DecidableEq, Repr

/-- The indexes the loop of `ParseTicketContribs` visits: from `ticketContribOutputIndex` in
steps of two, below `tx.vout.size()`.
Source: `src/stake/staketx.cpp` `ParseTicketContribs` (the `for` header)
Kind: D -/
def contribOutputIndexes (tx : CTransaction) : List Nat :=
  (List.range tx.vout.length).filter fun i =>
    ticketContribOutputIndex ≤ i ∧ (i - ticketContribOutputIndex) % 2 = 0

/-- The loop of `ParseTicketContribs` over the given output indexes, accumulating into `acc`.
Each turn parses into a fresh `TicketContribData`, whose members the source leaves
uninitialised; every member is written before `ParseTicketContrib` returns `true`, and on
`false` the loop returns without reading it, so its initial value is never observed.
Source: `src/stake/staketx.cpp` `ParseTicketContribs` (the loop)
Kind: D
Fidelity: exact; the totals are unbounded integers, where a `CAmount` sum that overflows is
undefined in the source -/
def parseTicketContribsLoop (tx : CTransaction) (acc : TicketContribs) :
    List Nat → Except Fault (Bool × TicketContribs)
  | [] => .ok (true, acc)
  | i :: rest =>
    parseTicketContrib tx i default >>= fun (ok, contrib) =>
      if ¬ ok then .ok (false, acc)
      else parseTicketContribsLoop tx
        ⟨acc.contributions ++ [contrib],
          acc.totalContribution + contrib.contributedAmount,
          acc.totalVoteFeeLimit + contrib.voteFeeLimit,
          acc.totalRevocationFeeLimit + contrib.revocationFeeLimit⟩ rest

/-- `ParseTicketContribs(tx, contributions, totalContribution, totalVoteFeeLimit,
totalRevocationFeeLimit)`, called with an empty `contributions` as every caller does: the
result and the output parameters.
Source: `src/stake/staketx.cpp` `ParseTicketContribs`
Kind: D -/
def parseTicketContribs (tx : CTransaction) : Except Fault (Bool × TicketContribs) :=
  parseTicketContribsLoop tx ⟨[], 0, 0, 0⟩ (contribOutputIndexes tx)

/-! ## Declarations -/

/-- `BuyTicketData`. Source: `src/stake/staketx.h` `struct BuyTicketData`. Kind: D -/
structure BuyTicketData where
  nVersion : Int
  deriving DecidableEq, Repr

/-- `GetScriptForBuyTicketDecl(data)`.
Source: `src/stake/staketx.cpp` `GetScriptForBuyTicketDecl`
Kind: D -/
def getScriptForBuyTicketDecl (data : BuyTicketData) : CScript :=
  getScriptForStructuredData classStaking ++ pushInt64 EStakeDataClass.stakeTxDeclaration.toInt
    ++ pushInt64 ETxClass.txBuyTicket.toInt ++ pushInt64 data.nVersion

/-- `RevokeTicketData`. Source: `src/stake/staketx.h` `struct RevokeTicketData`. Kind: D -/
structure RevokeTicketData where
  nVersion : Int
  deriving DecidableEq, Repr

/-- `GetScriptForRevokeTicketDecl(data)`.
Source: `src/stake/staketx.cpp` `GetScriptForRevokeTicketDecl`
Kind: D -/
def getScriptForRevokeTicketDecl (data : RevokeTicketData) : CScript :=
  getScriptForStructuredData classStaking ++ pushInt64 EStakeDataClass.stakeTxDeclaration.toInt
    ++ pushInt64 ETxClass.txRevokeTicket.toInt ++ pushInt64 data.nVersion

/-- `VoteBits`: sixteen bits, one per feature voted on.
Source: `src/stake/votebits.h` `class VoteBits`
Kind: D -/
structure VoteBits where
  vb : UInt16
  deriving DecidableEq, Repr

/-- `VoteBits::rttAccepted`: `VoteBits(Rtt, true)`, the bit of the regular transaction tree.
Source: `src/stake/votebits.cpp` `VoteBits::rttAccepted`
Kind: D -/
def VoteBits.rttAccepted : VoteBits := ⟨(1 : UInt16) <<< 0⟩

/-- `ExtendedVoteBits`: a byte vector.
Source: `src/stake/extendedvotebits.h` `class ExtendedVoteBits`
Kind: D -/
structure ExtendedVoteBits where
  v : List UInt8
  deriving DecidableEq, Repr

/-- `ExtendedVoteBits()`: the one byte `DefaultExtendedVoteBits = 0x00`.
Source: `src/stake/extendedvotebits.cpp` `ExtendedVoteBits::ExtendedVoteBits()`
Kind: D -/
def ExtendedVoteBits.empty : ExtendedVoteBits := ⟨[0x00]⟩

/-- `VoteData`.
Source: `src/stake/staketx.h` `struct VoteData`
Kind: D -/
structure VoteData where
  nVersion : Int
  blockHash : Uint256
  blockHeight : UInt32
  voteBits : VoteBits
  voterStakeVersion : UInt32
  extendedVoteBits : ExtendedVoteBits

/-- `VoteData()`: every member value-initialised.
Source: `src/stake/staketx.h` `VoteData::VoteData()`
Kind: D -/
def VoteData.empty : VoteData := ⟨0, Uint256.zero, 0, ⟨0⟩, 0, ExtendedVoteBits.empty⟩

/-- `GetScriptForVoteDecl(data)`.
Source: `src/stake/staketx.cpp` `GetScriptForVoteDecl`
Kind: D
Fidelity: exact; the block height, vote bits and stake version are pushed with `push_int64`, the
hash and the extended vote bits as bytes -/
def getScriptForVoteDecl (data : VoteData) : CScript :=
  getScriptForStructuredData classStaking ++ pushInt64 EStakeDataClass.stakeTxDeclaration.toInt
    ++ pushInt64 ETxClass.txVote.toInt ++ pushInt64 data.nVersion ++ pushBytes data.blockHash.bytes
    ++ pushInt64 data.blockHeight.toNat ++ pushInt64 data.voteBits.vb.toNat
    ++ pushInt64 data.voterStakeVersion.toNat ++ pushBytes data.extendedVoteBits.v

/-- `GetVoteDataSizeWithEmptyExtendedVoteBits()`: the serialized size (compact size prefix and
bytes) of the declaration script of `VoteData()`.
Source: `src/stake/staketx.cpp` `GetVoteDataSizeWithEmptyExtendedVoteBits`
Kind: D -/
def getVoteDataSizeWithEmptyExtendedVoteBits : Nat :=
  let script := getScriptForVoteDecl VoteData.empty
  getSizeOfCompactSize script.length + script.length

/-- `ExtendedVoteBits::maxSize()` for the node setting `nMaxStructDatacarrierBytes`: the room
left in a structured output after the other vote data and a push opcode, in `size_t` arithmetic.
Source: `src/stake/extendedvotebits.cpp` `ExtendedVoteBits::maxSize`
Kind: D -/
def ExtendedVoteBits.maxSize (nMaxStructDatacarrierBytes : Nat) : Nat :=
  (((nMaxStructDatacarrierBytes : Int) - getVoteDataSizeWithEmptyExtendedVoteBits - 1) % 2 ^ 64).toNat

/-- `containsValidExtendedVoteBits(vect)`: between `minSize() = 1` and `maxSize()` bytes.
Source: `src/stake/extendedvotebits.cpp` `ExtendedVoteBits::containsValidExtendedVoteBits`
Kind: D -/
def ExtendedVoteBits.containsValid (nMaxStructDatacarrierBytes : Nat) (vect : List UInt8) : Bool :=
  decide (1 ≤ vect.length ∧ vect.length ≤ ExtendedVoteBits.maxSize nMaxStructDatacarrierBytes)

/-- `ExtendedVoteBits(vect)`: the vector if it is valid, the default byte otherwise.
Source: `src/stake/extendedvotebits.cpp` `ExtendedVoteBits::ExtendedVoteBits(const
std::vector<unsigned char>&)`
Kind: D -/
def ExtendedVoteBits.ofVector (nMaxStructDatacarrierBytes : Nat) (vect : List UInt8) :
    ExtendedVoteBits :=
  if ExtendedVoteBits.containsValid nMaxStructDatacarrierBytes vect then ⟨vect⟩
  else ExtendedVoteBits.empty

/-- `ParseVote(tx, data)` on a node whose `nMaxStructDatacarrierBytes` setting is given: the
result, and `data` as the call leaves it. Every number but the hash is read as a script number
with the default 4-byte limit.
Source: `src/stake/staketx.cpp` `ParseVote`
Kind: D
Fidelity: exact; the `uint32_t` casts are taken modulo `2^32`, and `uint256(vch)` asserts that
the hash item has 32 bytes -/
def parseVote (nMaxStructDatacarrierBytes : Nat) (tx : CTransaction) (data : VoteData) :
    Except Fault (Bool × VoteData) := do
  -- structVersion, dataClass, stakeDataClass, txClass, voteVersion, blockHash, blockHeight,
  -- voteBits, voterStakeVersion, extendedVoteBits
  let numItems := 10
  let (ok, items) ← parseStakeData tx txdeclOutputIndex .stakeTxDeclaration numItems
  if ¬ ok then return (false, data)
  match items with
  | _ :: _ :: _ :: txClass :: txVersion :: voteBlockHash :: voteBlockHeight :: voteBits ::
      voterStakeVersion :: extendedVoteBits :: _ =>
    let txClass := ETxClass.ofInt (← CScriptNum.ofBytes txClass false nDefaultMaxNumSize).getint
    if txClass ≠ .txVote then return (false, data)
    let nVersion := (← CScriptNum.ofBytes txVersion false nDefaultMaxNumSize).getint
    let data := { data with nVersion := nVersion }
    if nVersion ≠ 1 then return (false, data)
    let blockHash ← Uint256.ofBytes voteBlockHash
    let data := { data with blockHash := blockHash }
    let blockHeight := (← CScriptNum.ofBytes voteBlockHeight false nDefaultMaxNumSize).getint
    let data := { data with blockHeight := UInt32.ofInt blockHeight }
    let vb := (← CScriptNum.ofBytes voteBits false nDefaultMaxNumSize).getint
    if vb < 0 ∨ vb > 65535 then return (false, data)
    let data := { data with voteBits := ⟨UInt16.ofInt vb⟩ }
    let voterStakeVersion :=
      (← CScriptNum.ofBytes voterStakeVersion false nDefaultMaxNumSize).getint
    let data := { data with voterStakeVersion := UInt32.ofInt voterStakeVersion }
    let extendedVoteBits := ExtendedVoteBits.ofVector nMaxStructDatacarrierBytes extendedVoteBits
    return (true, { data with extendedVoteBits := extendedVoteBits })
  -- `ParseStakeData` accepts only with at least `numItems` items
  | _ => return (false, data)

end BwsCoin.Stake
