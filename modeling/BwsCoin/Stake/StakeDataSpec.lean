import BwsCoin.Stake.StakeData
import BwsCoin.Script.ScriptNum

/-!
# Stake data read back

The writers of `src/stake/staketx.cpp` build a structured OP_RETURN from pushes, and the readers
take it apart through `Solver` and `ParseDataItem`, then decode each item. A writer's script is
a list of chunks, each a push with the item `ParseDataItem` reads from it (`ReadsBack`); a reader
sees the items, and decodes each with the size limit it chooses.

* `parseTicketContrib_getScriptForTicketContrib` — `ParseTicketContrib` reads back every
  contribution `GetScriptForTicketContrib` writes whose numbers are not `-1` (`OP_1NEGATE` is
  no data item) and fit their decoders' limits: 4 bytes for the version and address type, 8 for
  the amounts;
* `parseVote_getScriptForVoteDecl` — `ParseVote` reads back every version-1 vote whose block
  height and stake version are below `2^31`;
* `parseVote_overflow` — and throws on every other: `push_int64` writes a `uint32_t` of `2^31`
  or more in five bytes, which the 4-byte default limit of `CScriptNum` rejects;
* `validateBuyTicketStructure_reads_past_header_only_contrib` — `Solver` accepts a structured
  output with the version and class alone, and `ValidateDataTxoutStructure` then skips three
  items of two: a purchase whose first contribution is `OP_RETURN OP_STRUCT 1 0` is undefined.
-/

namespace BwsCoin.Stake

open Script Policy

/-! ## Casts -/

/-- Source: `src/stake/staketx.cpp` `ParseVote` (the `uint32_t` casts). Kind: L -/
theorem uint32_ofInt_toNat (x : UInt32) : UInt32.ofInt (x.toNat : Int) = x := by
  have := x.toNat_lt
  rw [UInt32.ofInt, Int.emod_eq_of_lt (by omega) (by omega), Int.toNat_natCast, UInt32.ofNat_toNat]

/-- Source: `src/stake/staketx.cpp` `ParseVote` (the `uint16_t` cast). Kind: L -/
theorem uint16_ofInt_toNat (x : UInt16) : UInt16.ofInt (x.toNat : Int) = x := by
  have := x.toNat_lt
  rw [UInt16.ofInt, Int.emod_eq_of_lt (by omega) (by omega), Int.toNat_natCast, UInt16.ofNat_toNat]

/-! ## The structured header -/

/-- `ParseStakeData` accepts a structured output whose items all parse and begin with a
version-1 staking header of the stake data class asked for, and returns the items.
Source: `src/stake/staketx.cpp` `ParseStakeData`
Kind: L -/
theorem parseStakeData_of_parseItems {tx : CTransaction} {txoutIndex : Nat} {out : CTxOut}
    (hout : tx.vout[txoutIndex]? = some out) {body : List UInt8}
    (hs : out.scriptPubKey = opReturn :: opStruct :: body) {sdc : List UInt8}
    {rest : List (List UInt8)} (hitems : parseItems body = ([1] :: [0] :: sdc :: rest, true))
    {c : EStakeDataClass} (hsdc : CScriptNum.ofBytes sdc false nDefaultMaxNumSize = .ok ⟨c.toInt⟩)
    {minItems : Nat} (hmin : minItems ≤ rest.length + 3) :
    parseStakeData tx txoutIndex c minItems = .ok (true, [1] :: [0] :: sdc :: rest) := by
  obtain ⟨h0, h1, -⟩ := ofBytes_small
  have hsolver := solver_structured hitems h1 h0
  have hbody : body ≠ [] := by
    rintro rfl
    rw [parseItems_nil] at hitems
    cases hitems
  have hstruct : isStructuredDataTxout tx txoutIndex = true := by
    unfold isStructuredDataTxout
    rw [hout]
    have := List.length_pos_iff.2 hbody
    simp only [hs, List.length_cons, List.getElem?_cons_zero, List.getElem?_cons_succ, and_true,
      decide_eq_true_eq]
    omega
  have hc : (⟨c.toInt⟩ : CScriptNum).getint = c.toInt := by cases c <;> rfl
  unfold parseStakeData
  rw [hout]
  simp only [hstruct, not_true_eq_false, if_false, hs, hsolver, except_ok_bind, h1, h0, hsdc, hc,
    List.length_cons]
  have hlen : ¬ (rest.length + 1 + 1 + 1 < 3 ∨ rest.length + 1 + 1 + 1 < minItems) := by omega
  rw [if_neg hlen]
  simp [CScriptNum.getint, classStaking]

/-! ## Ticket contributions -/

/-- The numbers of a contribution that `ParseTicketContrib` decodes within its limits: none is
`-1`, whose `OP_1NEGATE` is not a data item, the version and address type fit 4 bytes and the
amount 8. The fee limits, in `[0, MAX_MONEY]`, always do.
Source: `src/stake/staketx.cpp` `ParseTicketContrib`
Kind: S -/
structure TicketContribData.Decodable (d : TicketContribData) : Prop where
  nVersion_ne : d.nVersion ≠ -1
  nVersion_lt : d.nVersion.natAbs < 2 ^ 31
  whichAddr_ne : d.whichAddr ≠ -1
  whichAddr_lt : d.whichAddr.natAbs < 2 ^ 31
  contributedAmount_ne : d.contributedAmount ≠ -1
  contributedAmount_lt : d.contributedAmount.natAbs < 2 ^ 63

/-- The pushes of `GetScriptForTicketContrib(d)` after `OP_RETURN OP_STRUCT`, each with the item
`ParseDataItem` reads from it.
Source: `src/stake/staketx.cpp` `GetScriptForTicketContrib`
Kind: S -/
def ticketContribChunks (d : TicketContribData) : List (List UInt8 × List UInt8) :=
  [(pushInt64 1, [1]), (pushInt64 classStaking, [0]),
    (pushInt64 EStakeDataClass.stakeTicketContribution.toInt, [1]),
    (pushInt64 d.nVersion, pushedInt64Item d.nVersion), (pushBytes d.rewardAddr, d.rewardAddr),
    (pushInt64 d.whichAddr, pushedInt64Item d.whichAddr),
    (pushInt64 d.contributedAmount, pushedInt64Item d.contributedAmount),
    (pushInt64 d.voteFeeLimit, pushedInt64Item d.voteFeeLimit),
    (pushInt64 d.revocationFeeLimit, pushedInt64Item d.revocationFeeLimit)]

/-- Source: `src/stake/staketx.cpp` `GetScriptForTicketContrib`. Kind: L -/
theorem getScriptForTicketContrib_eq (d : TicketContribData) :
    getScriptForTicketContrib d =
      opReturn :: opStruct :: (ticketContribChunks d).flatMap Prod.fst := by
  simp [getScriptForTicketContrib, getScriptForStructuredData, ticketContribChunks]

/-- An amount in `[0, MAX_MONEY]` decodes with the limit of 8 bytes.
Source: `src/stake/staketx.cpp` `ParseTicketContrib`
Kind: L -/
theorem ofBytes_of_moneyRange {v : Int} (h : moneyRange v = true) :
    CScriptNum.ofBytes (pushedInt64Item v) false nMaxNumSizeForInt64 = .ok ⟨v⟩ := by
  rw [moneyRange_iff] at h
  exact ofBytes_pushedInt64Item (by decide) (by decide)
    (by simp [maxMoney, coin, nMaxNumSizeForInt64] at h ⊢; omega)

/-- Source: `src/script/standard.cpp` `ParseDataItem`. Kind: L -/
theorem readsBack_of_moneyRange {v : Int} (h : moneyRange v = true) :
    ReadsBack (pushInt64 v) (pushedInt64Item v) := by
  rw [moneyRange_iff] at h
  exact readsBack_pushInt64 (by omega) (by simp [maxMoney, coin] at h; omega)

/-- Every push of a decodable contribution reads back.
Source: `src/stake/staketx.cpp` `GetScriptForTicketContrib`, `src/script/standard.cpp`
`ParseDataItem`
Kind: L -/
theorem readsBack_ticketContribChunks {d : TicketContribData} (hd : d.Decodable) :
    ∀ c ∈ ticketContribChunks d, ReadsBack c.1 c.2 := by
  simp only [ticketContribChunks, List.mem_cons, List.not_mem_nil, or_false]
  rintro c (rfl | rfl | rfl | rfl | rfl | rfl | rfl | rfl | rfl)
  · exact readsBack_pushInt64 (n := 1) (by decide) (by decide)
  · exact readsBack_pushInt64 (n := 0) (by decide) (by decide)
  · exact readsBack_pushInt64 (n := 1) (by decide) (by decide)
  · exact readsBack_pushInt64 hd.nVersion_ne (by have := hd.nVersion_lt; omega)
  · -- the address is pushed as its 20 bytes, and read back as them
    have h := readsBack_pushBytes (b := d.rewardAddr) (by rw [d.rewardAddr_length]; decide)
    rwa [pushedItem, if_neg (List.ne_nil_of_length_pos (by rw [d.rewardAddr_length]; decide))] at h
  · exact readsBack_pushInt64 hd.whichAddr_ne (by have := hd.whichAddr_lt; omega)
  · exact readsBack_pushInt64 hd.contributedAmount_ne hd.contributedAmount_lt
  · exact readsBack_of_moneyRange d.voteFeeLimit_mem
  · exact readsBack_of_moneyRange d.revocationFeeLimit_mem

/-- `ParseStakeData` accepts the output of a decodable contribution, with its nine items.
Source: `src/stake/staketx.cpp` `ParseStakeData`, `GetScriptForTicketContrib`
Kind: L -/
theorem parseStakeData_getScriptForTicketContrib {tx : CTransaction} {txoutIndex : Nat}
    {out : CTxOut} (hout : tx.vout[txoutIndex]? = some out) {d : TicketContribData}
    (hs : out.scriptPubKey = getScriptForTicketContrib d) (hd : d.Decodable) :
    parseStakeData tx txoutIndex .stakeTicketContribution 9 =
      .ok (true, (ticketContribChunks d).map Prod.snd) :=
  parseStakeData_of_parseItems hout (hs.trans (getScriptForTicketContrib_eq d))
    (parseItems_flatMap _ (readsBack_ticketContribChunks hd)) (c := .stakeTicketContribution)
    ofBytes_small.2.1 (by simp)

/-- **`ParseTicketContrib` reads back what `GetScriptForTicketContrib` writes**, whatever the
output parameter held before, for every contribution whose numbers are decodable: in particular
for every version in `[0, INT_MAX]`, address type 1 or 2 and amount in `[0, MAX_MONEY]`.
Source: `src/stake/staketx.cpp` `ParseTicketContrib`, `GetScriptForTicketContrib`
Kind: T -/
theorem parseTicketContrib_getScriptForTicketContrib {tx : CTransaction} {txoutIndex : Nat}
    {out : CTxOut} (hout : tx.vout[txoutIndex]? = some out) {d : TicketContribData}
    (hs : out.scriptPubKey = getScriptForTicketContrib d) (hd : d.Decodable)
    (data : TicketContribData) : parseTicketContrib tx txoutIndex data = .ok (true, d) := by
  have hv' := hd.nVersion_lt
  have hw' := hd.whichAddr_lt
  have hv : CScriptNum.ofBytes (pushedInt64Item d.nVersion) false nDefaultMaxNumSize =
      .ok ⟨d.nVersion⟩ :=
    ofBytes_pushedInt64Item (by decide) (by decide) (by simp only [nDefaultMaxNumSize]; omega)
  have hw : CScriptNum.ofBytes (pushedInt64Item d.whichAddr) false nDefaultMaxNumSize =
      .ok ⟨d.whichAddr⟩ :=
    ofBytes_pushedInt64Item (by decide) (by decide) (by simp only [nDefaultMaxNumSize]; omega)
  have ha : CScriptNum.ofBytes (pushedInt64Item d.contributedAmount) false nMaxNumSizeForInt64 =
      .ok ⟨d.contributedAmount⟩ :=
    ofBytes_pushedInt64Item (by decide) (by decide)
      (by have := hd.contributedAmount_lt; simp only [nMaxNumSizeForInt64]; omega)
  unfold parseTicketContrib
  simp only [parseStakeData_getScriptForTicketContrib hout hs hd, except_ok_bind,
    ticketContribChunks, List.map, not_true_eq_false, if_false, hv, hw, ha,
    ofBytes_of_moneyRange d.voteFeeLimit_mem, ofBytes_of_moneyRange d.revocationFeeLimit_mem,
    dif_pos d.rewardAddr_length, CScriptNum.getint64, d.voteFeeLimit_mem,
    d.revocationFeeLimit_mem]
  rw [CScriptNum.getint_of_le (by omega) (by omega), CScriptNum.getint_of_le (by omega) (by omega),
    except_pure]
  -- the setters keep fee limits that are already in range
  obtain ⟨nVersion, rewardAddr, whichAddr, contributedAmount, voteFeeLimit, revocationFeeLimit,
    hlen, hvote, hrev⟩ := d
  simp [TicketContribData.setVoteFeeLimit, TicketContribData.setRevocationFeeLimit,
    clampFeeLimit_of_moneyRange hvote, clampFeeLimit_of_moneyRange hrev]

/-- A contribution of a version in `[0, INT_MAX]`, address type 1 or 2 and an amount in
`[0, MAX_MONEY]` is decodable.
Source: `src/stake/staketx.cpp` `ParseTicketContrib`
Kind: L -/
theorem TicketContribData.decodable_of {d : TicketContribData} (h0 : 0 ≤ d.nVersion)
    (h1 : d.nVersion < 2 ^ 31) (hw : d.whichAddr = 1 ∨ d.whichAddr = 2)
    (ha : moneyRange d.contributedAmount = true) : d.Decodable := by
  rw [moneyRange_iff] at ha
  have hmax : maxMoney < 2 ^ 63 := by decide
  refine ⟨by omega, by omega, by omega, by omega, by omega, by omega⟩

/-- **The contributions of the wallet's tickets read back**: a version in `[0, INT_MAX]`, address
type 1 or 2 and an amount in `[0, MAX_MONEY]` (the fee limits are in range by construction).
Source: `src/stake/staketx.cpp` `ParseTicketContrib`, `GetScriptForTicketContrib`
Kind: T -/
theorem parseTicketContrib_getScriptForTicketContrib_of_moneyRange {tx : CTransaction}
    {txoutIndex : Nat} {out : CTxOut} (hout : tx.vout[txoutIndex]? = some out)
    {d : TicketContribData} (hs : out.scriptPubKey = getScriptForTicketContrib d)
    (h0 : 0 ≤ d.nVersion) (h1 : d.nVersion < 2 ^ 31) (hw : d.whichAddr = 1 ∨ d.whichAddr = 2)
    (ha : moneyRange d.contributedAmount = true) (data : TicketContribData) :
    parseTicketContrib tx txoutIndex data = .ok (true, d) :=
  parseTicketContrib_getScriptForTicketContrib hout hs
    (TicketContribData.decodable_of h0 h1 hw ha) data

/-- A contribution of the whole supply to a P2SH address, read back from output 1.
Source: `src/stake/staketx.cpp` `ParseTicketContrib`, `GetScriptForTicketContrib`
Kind: W -/
theorem parseTicketContrib_reads_max_money :
    parseTicketContrib ⟨[⟨0, []⟩, ⟨0, getScriptForTicketContrib
        ⟨1, List.replicate 20 9, 2, 210000000000000000, 0, 0, rfl, rfl, rfl⟩⟩]⟩ 1 default =
      .ok (true, ⟨1, List.replicate 20 9, 2, 210000000000000000, 0, 0, rfl, rfl, rfl⟩) :=
  parseTicketContrib_getScriptForTicketContrib_of_moneyRange rfl rfl (by decide) (by decide)
    (Or.inr rfl) (by decide) default

/-! ## Vote declarations -/

/-- The pushes of `GetScriptForVoteDecl(v)` after `OP_RETURN OP_STRUCT`, each with the item
`ParseDataItem` reads from it.
Source: `src/stake/staketx.cpp` `GetScriptForVoteDecl`
Kind: S -/
def voteDeclChunks (v : VoteData) : List (List UInt8 × List UInt8) :=
  [(pushInt64 1, [1]), (pushInt64 classStaking, [0]),
    (pushInt64 EStakeDataClass.stakeTxDeclaration.toInt, [0]),
    (pushInt64 ETxClass.txVote.toInt, [2]),
    (pushInt64 v.nVersion, pushedInt64Item v.nVersion),
    (pushBytes v.blockHash.bytes, v.blockHash.bytes),
    (pushInt64 v.blockHeight.toNat, pushedInt64Item v.blockHeight.toNat),
    (pushInt64 v.voteBits.vb.toNat, pushedInt64Item v.voteBits.vb.toNat),
    (pushInt64 v.voterStakeVersion.toNat, pushedInt64Item v.voterStakeVersion.toNat),
    (pushBytes v.extendedVoteBits.v, pushedItem v.extendedVoteBits.v)]

/-- Source: `src/stake/staketx.cpp` `GetScriptForVoteDecl`. Kind: L -/
theorem getScriptForVoteDecl_eq (v : VoteData) :
    getScriptForVoteDecl v = opReturn :: opStruct :: (voteDeclChunks v).flatMap Prod.fst := by
  simp [getScriptForVoteDecl, getScriptForStructuredData, voteDeclChunks]

/-- Source: `src/script/standard.cpp` `ParseDataItem`. Kind: L -/
theorem readsBack_natCast {n : Nat} (h : n < 2 ^ 63) :
    ReadsBack (pushInt64 n) (pushedInt64Item n) :=
  readsBack_pushInt64 (by omega) (by simpa using h)

/-- Every push of a version-1 vote reads back; the unsigned numbers all do, whatever their size.
Source: `src/stake/staketx.cpp` `GetScriptForVoteDecl`, `src/script/standard.cpp`
`ParseDataItem`
Kind: L -/
theorem readsBack_voteDeclChunks {v : VoteData} (hv : v.nVersion = 1)
    (he : v.extendedVoteBits.v.length < 2 ^ 32) :
    ∀ c ∈ voteDeclChunks v, ReadsBack c.1 c.2 := by
  simp only [voteDeclChunks, List.mem_cons, List.not_mem_nil, or_false]
  rintro c (rfl | rfl | rfl | rfl | rfl | rfl | rfl | rfl | rfl | rfl)
  · exact readsBack_pushInt64 (n := 1) (by decide) (by decide)
  · exact readsBack_pushInt64 (n := 0) (by decide) (by decide)
  · exact readsBack_pushInt64 (n := 0) (by decide) (by decide)
  · exact readsBack_pushInt64 (n := 2) (by decide) (by decide)
  · rw [hv]
    exact readsBack_pushInt64 (n := 1) (by decide) (by decide)
  · -- the hash is pushed as its 32 bytes, and read back as them
    have h := readsBack_pushBytes (b := v.blockHash.bytes) (by rw [Uint256.length_bytes]; decide)
    rwa [pushedItem, if_neg (List.ne_nil_of_length_pos (by rw [Uint256.length_bytes]; decide))] at h
  · exact readsBack_natCast (by have := v.blockHeight.toNat_lt; omega)
  · exact readsBack_natCast (by have := v.voteBits.vb.toNat_lt; omega)
  · exact readsBack_natCast (by have := v.voterStakeVersion.toNat_lt; omega)
  · exact readsBack_pushBytes he

/-- `ParseStakeData` accepts the declaration output of a version-1 vote, with its ten items.
Source: `src/stake/staketx.cpp` `ParseStakeData`, `GetScriptForVoteDecl`
Kind: L -/
theorem parseStakeData_getScriptForVoteDecl {tx : CTransaction} {out : CTxOut}
    (hout : tx.vout[0]? = some out) {v : VoteData} (hs : out.scriptPubKey = getScriptForVoteDecl v)
    (hv : v.nVersion = 1) (he : v.extendedVoteBits.v.length < 2 ^ 32) (minItems : Nat)
    (hmin : minItems ≤ 10) :
    parseStakeData tx txdeclOutputIndex .stakeTxDeclaration minItems =
      .ok (true, (voteDeclChunks v).map Prod.snd) :=
  parseStakeData_of_parseItems hout (hs.trans (getScriptForVoteDecl_eq v))
    (parseItems_flatMap _ (readsBack_voteDeclChunks hv he)) (c := .stakeTxDeclaration)
    ofBytes_small.1 (by simpa using hmin)

/-- A transaction whose declaration output is written by `GetScriptForVoteDecl` is a vote.
Source: `src/stake/staketx.cpp` `ParseTxClass`, `GetScriptForVoteDecl`
Kind: L -/
theorem parseTxClass_getScriptForVoteDecl {tx : CTransaction} {out : CTxOut}
    (hout : tx.vout[0]? = some out) {v : VoteData} (hs : out.scriptPubKey = getScriptForVoteDecl v)
    (hv : v.nVersion = 1) (he : v.extendedVoteBits.v.length < 2 ^ 32) :
    parseTxClass tx = .ok .txVote := by
  unfold parseTxClass
  simp only [parseStakeData_getScriptForVoteDecl hout hs hv he 4 (by decide),
    except_ok_bind, voteDeclChunks, List.map, not_true_eq_false, if_false]
  rfl

/-- `ParseVote` on the writer's script: every item decodes but the block height and the stake
version, whose decodes are the only calls left, and every member is the vote's but those two
and the extended vote bits, which the constructor checks.
Source: `src/stake/staketx.cpp` `ParseVote`, `GetScriptForVoteDecl`
Kind: L -/
theorem parseVote_getScriptForVoteDecl_eq {nMaxStructDatacarrierBytes : Nat} {tx : CTransaction}
    {out : CTxOut} (hout : tx.vout[0]? = some out) {v : VoteData}
    (hs : out.scriptPubKey = getScriptForVoteDecl v) (hv : v.nVersion = 1)
    (he : v.extendedVoteBits.v.length < 2 ^ 32) (data : VoteData) :
    parseVote nMaxStructDatacarrierBytes tx data =
      (CScriptNum.ofBytes (pushedInt64Item v.blockHeight.toNat) false nDefaultMaxNumSize >>=
        fun blockHeight =>
          CScriptNum.ofBytes (pushedInt64Item v.voterStakeVersion.toNat) false nDefaultMaxNumSize >>=
            fun voterStakeVersion =>
              .ok (true, { v with
                blockHeight := UInt32.ofInt blockHeight.getint,
                voterStakeVersion := UInt32.ofInt voterStakeVersion.getint,
                extendedVoteBits := ExtendedVoteBits.ofVector nMaxStructDatacarrierBytes
                  (pushedItem v.extendedVoteBits.v) })) := by
  have hvb := v.voteBits.vb.toNat_lt
  have h2 : ETxClass.ofInt (⟨2⟩ : CScriptNum).getint = .txVote := rfl
  have h1 : CScriptNum.ofBytes (pushedInt64Item 1) false nDefaultMaxNumSize = .ok ⟨1⟩ :=
    ofBytes_small.2.1
  have hone : (⟨1⟩ : CScriptNum).getint = 1 := rfl
  have hvb' : (⟨(v.voteBits.vb.toNat : Int)⟩ : CScriptNum).getint = v.voteBits.vb.toNat :=
    CScriptNum.getint_of_le (by omega) (by omega)
  unfold parseVote
  simp only [parseStakeData_getScriptForVoteDecl hout hs hv he 10 le_rfl,
    except_ok_bind, voteDeclChunks, List.map, not_true_eq_false, if_false, ofBytes_small.2.2, hv]
  rw [h2, if_neg (by simp), h1]
  simp only [except_ok_bind, Uint256.ofBytes_bytes, hone, ne_eq, not_true_eq_false, if_false,
    ofBytes_natCast_of_lt (show v.voteBits.vb.toNat < 2 ^ 31 by omega), hvb', uint16_ofInt_toNat]
  -- the vote bits are a `uint16_t`, so their range check passes
  have hrange : ¬ ((v.voteBits.vb.toNat : Int) < 0 ∨ (v.voteBits.vb.toNat : Int) > 65535) := by
    omega
  simp only [hrange, if_false]
  rfl

/-- **`ParseVote` reads back a version-1 vote that `GetScriptForVoteDecl` writes**, and
`ParseTxClass` classifies it as a vote, when its block height and stake version are below
`2^31` and its extended vote bits are valid.
Source: `src/stake/staketx.cpp` `ParseVote`, `ParseTxClass`, `GetScriptForVoteDecl`
Kind: T -/
theorem parseVote_getScriptForVoteDecl {nMaxStructDatacarrierBytes : Nat} {tx : CTransaction}
    {out : CTxOut} (hout : tx.vout[0]? = some out) {v : VoteData}
    (hs : out.scriptPubKey = getScriptForVoteDecl v) (hv : v.nVersion = 1)
    (hh : v.blockHeight.toNat < 2 ^ 31) (hsv : v.voterStakeVersion.toNat < 2 ^ 31)
    (hev : ExtendedVoteBits.containsValid nMaxStructDatacarrierBytes v.extendedVoteBits.v = true)
    (he : v.extendedVoteBits.v.length < 2 ^ 32) (data : VoteData) :
    parseTxClass tx = .ok .txVote ∧ parseVote nMaxStructDatacarrierBytes tx data = .ok (true, v) := by
  refine ⟨parseTxClass_getScriptForVoteDecl hout hs hv he, ?_⟩
  have hne : v.extendedVoteBits.v ≠ [] := by
    intro hnil
    simp [ExtendedVoteBits.containsValid, hnil] at hev
  rw [parseVote_getScriptForVoteDecl_eq hout hs hv he, ofBytes_natCast_of_lt hh,
    ofBytes_natCast_of_lt hsv]
  simp only [except_ok_bind,
    CScriptNum.getint_of_le (show -2147483648 ≤ (v.blockHeight.toNat : Int) by omega)
      (show (v.blockHeight.toNat : Int) ≤ 2147483647 by omega),
    CScriptNum.getint_of_le (show -2147483648 ≤ (v.voterStakeVersion.toNat : Int) by omega)
      (show (v.voterStakeVersion.toNat : Int) ≤ 2147483647 by omega),
    uint32_ofInt_toNat, pushedItem, if_neg hne, ExtendedVoteBits.ofVector, hev, if_true]

/-- The vote of the default node setting at height 1000, read back.
Source: `src/stake/staketx.cpp` `ParseVote`, `GetScriptForVoteDecl`
Kind: W -/
theorem parseVote_reads_height_1000 :
    parseTxClass ⟨[⟨0, getScriptForVoteDecl ⟨1, Uint256.zero, 1000, ⟨1⟩, 0, ⟨[0]⟩⟩⟩]⟩ =
        .ok .txVote ∧
      parseVote 164 ⟨[⟨0, getScriptForVoteDecl ⟨1, Uint256.zero, 1000, ⟨1⟩, 0, ⟨[0]⟩⟩⟩]⟩
          VoteData.empty = .ok (true, ⟨1, Uint256.zero, 1000, ⟨1⟩, 0, ⟨[0]⟩⟩) :=
  parseVote_getScriptForVoteDecl rfl rfl rfl (by decide) (by decide) (by decide) (by decide)
    VoteData.empty

/-- **`ParseVote` throws on every version-1 vote `GetScriptForVoteDecl` writes with a block
height or a stake version of `2^31` or more**, though `ParseTxClass` classifies it as a vote:
the writer's `push_int64` takes five bytes for such a `uint32_t`, and the reader decodes it with
`CScriptNum`'s default limit of four.
Source: `src/stake/staketx.cpp` `ParseVote`, `GetScriptForVoteDecl`; `src/script/script.h`
`CScriptNum::CScriptNum`, `CScript::push_int64`
Kind: T -/
theorem parseVote_overflow {nMaxStructDatacarrierBytes : Nat} {tx : CTransaction} {out : CTxOut}
    (hout : tx.vout[0]? = some out) {v : VoteData} (hs : out.scriptPubKey = getScriptForVoteDecl v)
    (hv : v.nVersion = 1) (he : v.extendedVoteBits.v.length < 2 ^ 32)
    (hbig : 2 ^ 31 ≤ v.blockHeight.toNat ∨ 2 ^ 31 ≤ v.voterStakeVersion.toNat) (data : VoteData) :
    parseTxClass tx = .ok .txVote ∧
      parseVote nMaxStructDatacarrierBytes tx data = .error (.raise "script number overflow") := by
  refine ⟨parseTxClass_getScriptForVoteDecl hout hs hv he, ?_⟩
  rw [parseVote_getScriptForVoteDecl_eq hout hs hv he]
  rcases Nat.lt_or_ge v.blockHeight.toNat (2 ^ 31) with hlt | hge
  · -- the height decodes, and the stake version is the one too large
    rw [ofBytes_natCast_of_lt hlt, except_ok_bind,
      ofBytes_natCast_of_ge (hbig.resolve_left (by omega)) v.voterStakeVersion.toNat_lt,
      except_error_bind]
  · rw [ofBytes_natCast_of_ge hge v.blockHeight.toNat_lt, except_error_bind]

/-- The vote at height `2^31`, on a node with the default setting.
Source: `src/stake/staketx.cpp` `ParseVote`, `GetScriptForVoteDecl`
Kind: W -/
theorem parseVote_overflow_at_height_2147483648 :
    parseTxClass ⟨[⟨0, getScriptForVoteDecl ⟨1, Uint256.zero, 2147483648, ⟨1⟩, 0, ⟨[0]⟩⟩⟩]⟩ =
        .ok .txVote ∧
      parseVote 164 ⟨[⟨0, getScriptForVoteDecl ⟨1, Uint256.zero, 2147483648, ⟨1⟩, 0, ⟨[0]⟩⟩⟩]⟩
          VoteData.empty = .error (.raise "script number overflow") :=
  parseVote_overflow rfl rfl rfl (by decide) (Or.inl (by decide)) VoteData.empty

/-! ## Revocation declarations -/

/-- The pushes of `GetScriptForRevokeTicketDecl(r)` after `OP_RETURN OP_STRUCT`, each with the
item `ParseDataItem` reads from it.
Source: `src/stake/staketx.cpp` `GetScriptForRevokeTicketDecl`
Kind: S -/
def revokeTicketDeclChunks (r : RevokeTicketData) : List (List UInt8 × List UInt8) :=
  [(pushInt64 1, [1]), (pushInt64 classStaking, [0]),
    (pushInt64 EStakeDataClass.stakeTxDeclaration.toInt, [0]),
    (pushInt64 ETxClass.txRevokeTicket.toInt, [3]),
    (pushInt64 r.nVersion, pushedInt64Item r.nVersion)]

/-- Source: `src/stake/staketx.cpp` `GetScriptForRevokeTicketDecl`. Kind: L -/
theorem getScriptForRevokeTicketDecl_eq (r : RevokeTicketData) :
    getScriptForRevokeTicketDecl r =
      opReturn :: opStruct :: (revokeTicketDeclChunks r).flatMap Prod.fst := by
  simp [getScriptForRevokeTicketDecl, getScriptForStructuredData, revokeTicketDeclChunks]

/-- A transaction whose declaration output is written by `GetScriptForRevokeTicketDecl` is a
revocation.
Source: `src/stake/staketx.cpp` `ParseTxClass`, `GetScriptForRevokeTicketDecl`
Kind: L -/
theorem parseTxClass_getScriptForRevokeTicketDecl {tx : CTransaction} {out : CTxOut}
    (hout : tx.vout[0]? = some out) {r : RevokeTicketData}
    (hs : out.scriptPubKey = getScriptForRevokeTicketDecl r) (hr : r.nVersion ≠ -1)
    (hr' : r.nVersion.natAbs < 2 ^ 63) :
    parseTxClass tx = .ok .txRevokeTicket := by
  have hitems : parseItems ((revokeTicketDeclChunks r).flatMap Prod.fst) =
      ((revokeTicketDeclChunks r).map Prod.snd, true) := by
    refine parseItems_flatMap _ ?_
    simp only [revokeTicketDeclChunks, List.mem_cons, List.not_mem_nil, or_false]
    rintro c (rfl | rfl | rfl | rfl | rfl)
    · exact readsBack_pushInt64 (n := 1) (by decide) (by decide)
    · exact readsBack_pushInt64 (n := 0) (by decide) (by decide)
    · exact readsBack_pushInt64 (n := 0) (by decide) (by decide)
    · exact readsBack_pushInt64 (n := 3) (by decide) (by decide)
    · exact readsBack_pushInt64 hr hr'
  have hps : parseStakeData tx txdeclOutputIndex .stakeTxDeclaration 4 =
      .ok (true, (revokeTicketDeclChunks r).map Prod.snd) :=
    parseStakeData_of_parseItems hout (hs.trans (getScriptForRevokeTicketDecl_eq r)) hitems
      (c := .stakeTxDeclaration) ofBytes_small.1 (by simp)
  unfold parseTxClass
  simp only [hps, except_ok_bind, revokeTicketDeclChunks, List.map, not_true_eq_false, if_false]
  rfl

/-! ## Ticket purchases -/

/-- `Solver` classifies the output of a decodable contribution as structured data, with its nine
items.
Source: `src/script/standard.cpp` `Solver`, `src/stake/staketx.cpp` `GetScriptForTicketContrib`
Kind: L -/
theorem solver_getScriptForTicketContrib {d : TicketContribData} (hd : d.Decodable) :
    solver (getScriptForTicketContrib d) =
      .ok ⟨true, some .txStructData, (ticketContribChunks d).map Prod.snd⟩ := by
  rw [getScriptForTicketContrib_eq]
  exact solver_structured (parseItems_flatMap _ (readsBack_ticketContribChunks hd))
    ofBytes_small.2.1 ofBytes_small.1

/-- The pushes of `GetScriptForBuyTicketDecl(b)` after `OP_RETURN OP_STRUCT`, each with the item
`ParseDataItem` reads from it.
Source: `src/stake/staketx.cpp` `GetScriptForBuyTicketDecl`
Kind: S -/
def buyTicketDeclChunks (b : BuyTicketData) : List (List UInt8 × List UInt8) :=
  [(pushInt64 1, [1]), (pushInt64 classStaking, [0]),
    (pushInt64 EStakeDataClass.stakeTxDeclaration.toInt, [0]),
    (pushInt64 ETxClass.txBuyTicket.toInt, [1]), (pushInt64 b.nVersion, pushedInt64Item b.nVersion)]

/-- Source: `src/stake/staketx.cpp` `GetScriptForBuyTicketDecl`. Kind: L -/
theorem getScriptForBuyTicketDecl_eq (b : BuyTicketData) :
    getScriptForBuyTicketDecl b = opReturn :: opStruct :: (buyTicketDeclChunks b).flatMap Prod.fst := by
  simp [getScriptForBuyTicketDecl, getScriptForStructuredData, buyTicketDeclChunks]

/-- `Solver` classifies a purchase declaration as structured data, with its five items.
Source: `src/script/standard.cpp` `Solver`, `src/stake/staketx.cpp` `GetScriptForBuyTicketDecl`
Kind: L -/
theorem solver_getScriptForBuyTicketDecl {b : BuyTicketData} (hb : b.nVersion ≠ -1)
    (hb' : b.nVersion.natAbs < 2 ^ 63) :
    solver (getScriptForBuyTicketDecl b) =
      .ok ⟨true, some .txStructData, (buyTicketDeclChunks b).map Prod.snd⟩ := by
  rw [getScriptForBuyTicketDecl_eq]
  refine solver_structured (parseItems_flatMap _ ?_) ofBytes_small.2.1 ofBytes_small.1
  simp only [buyTicketDeclChunks, List.mem_cons, List.not_mem_nil, or_false]
  rintro c (rfl | rfl | rfl | rfl | rfl)
  · exact readsBack_pushInt64 (n := 1) (by decide) (by decide)
  · exact readsBack_pushInt64 (n := 0) (by decide) (by decide)
  · exact readsBack_pushInt64 (n := 0) (by decide) (by decide)
  · exact readsBack_pushInt64 (n := 1) (by decide) (by decide)
  · exact readsBack_pushInt64 hb hb'

/-- Source: `src/stake/staketx.cpp` `IsStructuredDataTxout`, `IsDataTxout`. Kind: L -/
theorem isStructuredDataTxout_of_script {tx : CTransaction} {i : Nat} {out : CTxOut}
    (hout : tx.vout[i]? = some out) {b : UInt8} {body : List UInt8}
    (hs : out.scriptPubKey = opReturn :: opStruct :: b :: body) :
    isStructuredDataTxout tx i = true ∧ isDataTxout tx i = true := by
  unfold isStructuredDataTxout isDataTxout
  rw [hout]
  simp [hs]

/-- `ValidateDataTxoutStructure` on a structured output that `Solver` accepts returns the items
after the header, when there are as many as expected and of the expected sizes.
Source: `src/stake/staketx.cpp` `ValidateDataTxoutStructure`
Kind: L -/
theorem validateDataTxoutStructure_of_solver {tx : CTransaction} {i : Nat} {out : CTxOut}
    (hout : tx.vout[i]? = some out) {b : UInt8} {body : List UInt8}
    (hs : out.scriptPubKey = opReturn :: opStruct :: b :: body) {items : List (List UInt8)}
    (hsolver : solver out.scriptPubKey = .ok ⟨true, some .txStructData, items⟩) (n : Nat)
    (sizes : List Nat) (hn : (items.drop txClassIndex).length = n) (hpos : 0 < n)
    (hsz : itemSizeError i 0 (items.drop txClassIndex) sizes = none) :
    validateDataTxoutStructure tx i n sizes = .ok (.ok (items.drop txClassIndex)) := by
  obtain ⟨hstruct, hdata⟩ := isStructuredDataTxout_of_script hout hs
  -- items after the header exist, so the header is there to skip
  have hlen : ¬ items.length < txClassIndex := by
    rw [List.length_drop] at hn
    omega
  subst hn
  unfold validateDataTxoutStructure
  rw [hout]
  simp [hstruct, hdata, hsolver, hsz, hlen]

/-- `ValidateDataTxoutStructure` on a structured output that `Solver` accepts with fewer items
than the header it skips copies from past the end of the items, whatever it expects.
Source: `src/stake/staketx.cpp` `ValidateDataTxoutStructure`
Kind: L -/
theorem validateDataTxoutStructure_of_short_items {tx : CTransaction} {i : Nat} {out : CTxOut}
    (hout : tx.vout[i]? = some out) {b : UInt8} {body : List UInt8}
    (hs : out.scriptPubKey = opReturn :: opStruct :: b :: body) {t : Option TxnOutType}
    {items : List (List UInt8)} (hsolver : solver out.scriptPubKey = .ok ⟨true, t, items⟩)
    (hshort : items.length < txClassIndex) (n : Nat) (sizes : List Nat) :
    validateDataTxoutStructure tx i n sizes =
      .error (.undefined "items.begin() + offsetItems past items.end()") := by
  obtain ⟨hstruct, hdata⟩ := isStructuredDataTxout_of_script hout hs
  unfold validateDataTxoutStructure
  rw [hout]
  simp [hstruct, hdata, hsolver, hshort]

/-- Source: `src/script/standard.cpp` `GetScriptForStructuredData`. Kind: L -/
theorem getScriptForStructuredData_classStaking :
    getScriptForStructuredData classStaking = [opReturn, opStruct, 0x51, 0x00] := by decide

/-- `Solver` accepts the structured header alone, `OP_RETURN OP_STRUCT 1 0`, with its two items:
`ParseOpReturn` asks for a version and a class and nothing after them.
Source: `src/script/standard.cpp` `Solver`, `ParseOpReturn`, `ParseDataItem`
Kind: L -/
theorem solver_getScriptForStructuredData_classStaking :
    solver (getScriptForStructuredData classStaking) =
      .ok ⟨true, some .txStructData, [[1], [0]]⟩ := by
  -- `OP_1` is read as the item 1, `OP_0` as the item 0
  have hitems : parseItems [0x51, 0x00] = ([[1], [0]], true) :=
    parseItems_flatMap [([0x51], [1]), ([0x00], [0])] (by
      simp only [List.mem_cons, List.not_mem_nil, or_false]
      rintro c (rfl | rfl)
      · exact readsBack_pushInt64 (n := 1) (by decide) (by decide)
      · exact readsBack_pushInt64 (n := 0) (by decide) (by decide))
  rw [getScriptForStructuredData_classStaking]
  exact solver_structured hitems ofBytes_small.2.1 ofBytes_small.1

/-- A purchase declaration passes `ValidateTxDeclStructure` for `TX_BuyTicket`.
Source: `src/stake/staketx.cpp` `ValidateTxDeclStructure`, `GetScriptForBuyTicketDecl`
Kind: L -/
theorem validateTxDeclStructure_getScriptForBuyTicketDecl {tx : CTransaction} {out : CTxOut}
    (hout : tx.vout[0]? = some out) {b : BuyTicketData}
    (hs : out.scriptPubKey = getScriptForBuyTicketDecl b) (hb : b.nVersion ≠ -1)
    (hb' : b.nVersion.natAbs < 2 ^ 63) :
    validateTxDeclStructure tx .txBuyTicket 2 [0, 0] = .ok (.ok ()) := by
  have hv := validateDataTxoutStructure_of_solver hout
    (hs.trans (by rw [getScriptForBuyTicketDecl, getScriptForStructuredData_classStaking]; rfl))
    (hs ▸ solver_getScriptForBuyTicketDecl hb hb') 2 [0, 0] rfl (by decide)
    (by simp [buyTicketDeclChunks, itemSizeError, txClassIndex])
  unfold validateTxDeclStructure
  rw [show txdeclOutputIndex = 0 from rfl, hv]
  simp only [except_ok_bind, buyTicketDeclChunks, List.map, txClassIndex, List.drop]
  rw [ofBytes_small.2.1]
  rfl

/-- A decodable contribution at an even index passes the output check of a purchase.
Source: `src/stake/staketx.cpp` `ValidateBuyTicketStructure` (the loop body)
Kind: L -/
theorem validateBuyTicketOutput_contrib {tx : CTransaction} {i : Nat} {out : CTxOut}
    (hout : tx.vout[i]? = some out) (hi : i % 2 = 0) {d : TicketContribData}
    (hs : out.scriptPubKey = getScriptForTicketContrib d) (hd : d.Decodable) :
    validateBuyTicketOutput tx i = .ok (.ok ()) := by
  have hv := validateDataTxoutStructure_of_solver hout
    (hs.trans (by rw [getScriptForTicketContrib, getScriptForStructuredData_classStaking]; rfl))
    (hs ▸ solver_getScriptForTicketContrib hd) 6 [0, 20, 0, 0, 0, 0] rfl (by decide)
    (by simp [ticketContribChunks, itemSizeError, txClassIndex, d.rewardAddr_length])
  rw [validateBuyTicketOutput, if_neg (by omega), hv]
  rfl

/-- A spendable output at an odd index passes the output check of a purchase.
Source: `src/stake/staketx.cpp` `ValidateBuyTicketStructure` (the loop body)
Kind: L -/
theorem validateBuyTicketOutput_change {tx : CTransaction} {i : Nat} {out : CTxOut}
    (hout : tx.vout[i]? = some out) (hi : i % 2 = 1) (hpay : isUnspendable out.scriptPubKey = false) :
    validateBuyTicketOutput tx i = .ok (.ok ()) := by
  rw [validateBuyTicketOutput, if_pos hi, isPaymentTxout, hout]
  simp [hpay]

/-- Source: `src/stake/staketx.cpp` `ValidateBuyTicketStructure` (the output loop). Kind: L -/
theorem validateBuyTicketOutputs_of_forall {tx : CTransaction} :
    ∀ {js : List Nat}, (∀ j ∈ js, validateBuyTicketOutput tx j = .ok (.ok ())) →
      validateBuyTicketOutputs tx js = .ok (.ok ())
  | [], _ => rfl
  | j :: js, h => by
    rw [validateBuyTicketOutputs, h j List.mem_cons_self, except_ok_bind]
    exact validateBuyTicketOutputs_of_forall fun j' hj' => h j' (List.mem_cons_of_mem _ hj')


/-- The outputs of a ticket purchase as the wallet writes them: the declaration, the stake, and
for each contribution its structured output, of value 0, and its change.
Source: `src/wallet/wallet.cpp` `CWallet::PurchaseTicket` (the outputs of `mTicketTx`)
Kind: S -/
def ticketPurchaseOutputs (decl : BuyTicketData) (stake : CTxOut)
    (parts : List (TicketContribData × CTxOut)) : List CTxOut :=
  ⟨0, getScriptForBuyTicketDecl decl⟩ :: stake ::
    parts.flatMap fun p => [⟨0, getScriptForTicketContrib p.1⟩, p.2]

/-- Source: none: infrastructure. Kind: L -/
theorem getElem?_flatMap_pair {α β : Type} (f g : α → β) :
    ∀ (l : List α) (i : Nat),
      (l.flatMap fun a => [f a, g a])[2 * i]? = l[i]?.map f ∧
        (l.flatMap fun a => [f a, g a])[2 * i + 1]? = l[i]?.map g
  | [], _ => by simp
  | a :: l, 0 => by simp
  | a :: l, i + 1 => by
    rw [List.flatMap_cons, show 2 * (i + 1) = 2 * i + 2 by omega,
      show 2 * i + 2 + 1 = 2 * i + 1 + 2 by omega]
    simpa using getElem?_flatMap_pair f g l i

/-- Source: `src/wallet/wallet.cpp` `CWallet::PurchaseTicket`. Kind: L -/
theorem length_ticketPurchaseOutputs (decl : BuyTicketData) (stake : CTxOut)
    (parts : List (TicketContribData × CTxOut)) :
    (ticketPurchaseOutputs decl stake parts).length = 2 + 2 * parts.length := by
  induction parts with
  | nil => rfl
  | cons p parts ih =>
    simp only [ticketPurchaseOutputs, List.length_cons, List.flatMap_cons, List.length_append,
      List.length_nil] at ih ⊢
    omega

/-- Output `2 + 2i` of a purchase is the contribution of part `i`, output `3 + 2i` its change.
Source: `src/stake/staketx.h` `ticketContribOutputIndex`, `ticketChangeOutputIndex`
Kind: L -/
theorem getElem?_ticketPurchaseOutputs (decl : BuyTicketData) (stake : CTxOut)
    (parts : List (TicketContribData × CTxOut)) (i : Nat) :
    (ticketPurchaseOutputs decl stake parts)[ticketContribOutputIndex + 2 * i]? =
        parts[i]?.map (fun p => ⟨0, getScriptForTicketContrib p.1⟩) ∧
      (ticketPurchaseOutputs decl stake parts)[ticketChangeOutputIndex + 2 * i]? =
        parts[i]?.map Prod.snd := by
  obtain ⟨h1, h2⟩ := getElem?_flatMap_pair (fun p : TicketContribData × CTxOut =>
    (⟨0, getScriptForTicketContrib p.1⟩ : CTxOut)) Prod.snd parts i
  refine ⟨?_, ?_⟩
  · rw [ticketPurchaseOutputs, show ticketContribOutputIndex + 2 * i = 2 * i + 2 by
      simp [ticketContribOutputIndex]; omega]
    simpa using h1
  · rw [ticketPurchaseOutputs, show ticketChangeOutputIndex + 2 * i = 2 * i + 1 + 2 by
      simp [ticketChangeOutputIndex]; omega]
    simpa using h2


/-- **Every ticket purchase laid out as the wallet writes it passes
`ValidateBuyTicketStructure`**, when it has between one and `BUY_TICKET_MAX_INPUTS` inputs, one
per contribution, its stake and changes are spendable and its contributions decodable.
Source: `src/stake/staketx.cpp` `ValidateBuyTicketStructure`
Kind: T -/
theorem validateBuyTicketStructure_ticketPurchase {tx : Primitives.CTransaction}
    {decl : BuyTicketData} {stake : CTxOut} {parts : List (TicketContribData × CTxOut)}
    (hvout : tx.vout = ticketPurchaseOutputs decl stake parts)
    (hvin : tx.vin.length = parts.length) (hn : 0 < parts.length)
    (hmax : parts.length ≤ buyTicketMaxInputs) (hdecl : decl.nVersion ≠ -1)
    (hdecl' : decl.nVersion.natAbs < 2 ^ 63) (hstake : isUnspendable stake.scriptPubKey = false)
    (hparts : ∀ p ∈ parts, p.1.Decodable ∧ isUnspendable p.2.scriptPubKey = false) :
    validateBuyTicketStructure tx = .ok (.ok ()) := by
  have hlen := length_ticketPurchaseOutputs decl stake parts
  rw [← hvout] at hlen
  have h0 : tx.outputs.vout[0]? = some ⟨0, getScriptForBuyTicketDecl decl⟩ := by
    simp [hvout, ticketPurchaseOutputs]
  have h1 : isPaymentTxout tx.outputs ticketStakeOutputIndex = true := by
    simp [isPaymentTxout, hvout, ticketPurchaseOutputs, ticketStakeOutputIndex, hstake]
  unfold validateBuyTicketStructure
  rw [if_neg (by omega), if_neg (by omega), if_neg (by omega),
    validateTxDeclStructure_getScriptForBuyTicketDecl h0 rfl hdecl hdecl', except_ok_bind]
  dsimp only
  rw [if_neg (by simp [h1])]
  apply validateBuyTicketOutputs_of_forall
  intro j hj
  rw [List.mem_range'_1] at hj
  obtain ⟨k, rfl⟩ : ∃ k, j = ticketContribOutputIndex + k :=
    ⟨j - ticketContribOutputIndex, by omega⟩
  -- the output after the stake at offset `k` belongs to the part `k / 2`
  obtain ⟨p, hp⟩ : ∃ p, parts[k / 2]? = some p :=
    Option.isSome_iff_exists.1 (by simp [ticketContribOutputIndex] at hj; simp; omega)
  obtain ⟨hd, hpay⟩ := hparts p (List.mem_of_getElem? hp)
  obtain ⟨hc, hch⟩ := getElem?_ticketPurchaseOutputs decl stake parts (k / 2)
  rcases Nat.mod_two_eq_zero_or_one k with hk | hk
  · -- a contribution
    have hj : ticketContribOutputIndex + k = ticketContribOutputIndex + 2 * (k / 2) := by omega
    rw [hj]
    have hout : tx.vout[ticketContribOutputIndex + 2 * (k / 2)]? =
        some ⟨0, getScriptForTicketContrib p.1⟩ := by simp [hvout, hc, hp]
    exact validateBuyTicketOutput_contrib hout (by simp [ticketContribOutputIndex]) rfl hd
  · -- a change payment
    have hj : ticketContribOutputIndex + k = ticketChangeOutputIndex + 2 * (k / 2) := by
      simp [ticketContribOutputIndex, ticketChangeOutputIndex]
      omega
    rw [hj]
    have hout : tx.vout[ticketChangeOutputIndex + 2 * (k / 2)]? = some p.2 := by
      simp [hvout, hch, hp]
    exact validateBuyTicketOutput_change hout (by simp [ticketChangeOutputIndex]) hpay

/-! ## A contribution with the header alone -/

/-- **`ValidateBuyTicketStructure` reads past the items of a header-only contribution.** On a
purchase with between one and `BUY_TICKET_MAX_INPUTS` inputs, the outputs they call for, a
purchase declaration and a spendable stake, whose first contribution output is
`OP_RETURN OP_STRUCT 1 0`, the output loop asks `ValidateDataTxoutStructure` for six items of
it; `Solver` accepts it with two, and the copy from `items.begin() + 3` is undefined.
Source: `src/stake/staketx.cpp` `ValidateBuyTicketStructure`, `ValidateDataTxoutStructure`;
`src/script/standard.cpp` `ParseOpReturn`
Kind: T -/
theorem validateBuyTicketStructure_reads_past_header_only_contrib {tx : Primitives.CTransaction}
    (hn : 0 < tx.vin.length) (hmax : tx.vin.length ≤ buyTicketMaxInputs)
    (hlen : tx.vout.length = 2 + 2 * tx.vin.length) {decl : BuyTicketData} {d : CTxOut}
    (h0 : tx.vout[0]? = some d) (hd : d.scriptPubKey = getScriptForBuyTicketDecl decl)
    (hdecl : decl.nVersion ≠ -1) (hdecl' : decl.nVersion.natAbs < 2 ^ 63)
    (hstake : isPaymentTxout tx.outputs ticketStakeOutputIndex = true) {c : CTxOut}
    (hc : tx.vout[ticketContribOutputIndex]? = some c)
    (hcs : c.scriptPubKey = getScriptForStructuredData classStaking) :
    validateBuyTicketStructure tx =
      .error (.undefined "items.begin() + offsetItems past items.end()") := by
  unfold validateBuyTicketStructure
  rw [if_neg (by omega), if_neg (by omega), if_neg (by omega),
    validateTxDeclStructure_getScriptForBuyTicketDecl
      (show tx.outputs.vout[0]? = some d from h0) hd hdecl hdecl',
    except_ok_bind]
  dsimp only
  rw [if_neg (by simp [hstake])]
  -- the output loop starts at the first contribution
  obtain ⟨m, hm⟩ : ∃ m, tx.vout.length - ticketContribOutputIndex = m + 1 :=
    ⟨tx.vout.length - ticketContribOutputIndex - 1, by simp [ticketContribOutputIndex]; omega⟩
  have hfault := validateDataTxoutStructure_of_short_items
    (show tx.outputs.vout[ticketContribOutputIndex]? = some c from hc)
    (hcs.trans (by rw [getScriptForStructuredData_classStaking]))
    (hcs ▸ solver_getScriptForStructuredData_classStaking) (by decide) 6 [0, 20, 0, 0, 0, 0]
  rw [hm, List.range'_succ, validateBuyTicketOutputs, validateBuyTicketOutput, if_neg (by decide),
    hfault]
  rfl

/-- A purchase with one input whose contribution output is the header alone.
Kind: S -/
def headerOnlyContribTicket : Primitives.CTransaction where
  vin := [⟨⟨Uint256.ofNat 1, 0⟩, [], 0xffffffff, ⟨[]⟩⟩]
  vout := [⟨0, getScriptForBuyTicketDecl ⟨1⟩⟩,
    ⟨100000000, getScriptForDestination (.keyID (List.replicate 20 3))⟩,
    ⟨0, getScriptForStructuredData classStaking⟩,
    ⟨0, getScriptForDestination (.keyID (List.replicate 20 1))⟩]
  nVersion := 3
  nLockTime := 0
  nExpiry := 0

/-- A ticket purchase with one input whose contribution output holds only the header.
Source: `src/stake/staketx.cpp` `ValidateBuyTicketStructure`
Kind: W -/
theorem validateBuyTicketStructure_reads_past_header_only_contrib_one_input :
    validateBuyTicketStructure headerOnlyContribTicket =
      .error (.undefined "items.begin() + offsetItems past items.end()") :=
  validateBuyTicketStructure_reads_past_header_only_contrib (by decide) (by decide) rfl rfl rfl
    (by decide) (by decide) (by decide) rfl rfl

/-- The loop of `ParseTicketContribs` over indexes at which every contribution parses appends
them all and adds up their amounts and fee limits.
Source: `src/stake/staketx.cpp` `ParseTicketContribs` (the loop)
Kind: L -/
theorem parseTicketContribsLoop_of_parses {tx : CTransaction} :
    ∀ (cs : List TicketContribData) (f : Nat → Nat) (acc : TicketContribs),
      (∀ i (h : i < cs.length), parseTicketContrib tx (f i) default = .ok (true, cs[i])) →
        parseTicketContribsLoop tx acc ((List.range cs.length).map f) =
          .ok (true, ⟨acc.contributions ++ cs,
            acc.totalContribution + (cs.map (·.contributedAmount)).sum,
            acc.totalVoteFeeLimit + (cs.map (·.voteFeeLimit)).sum,
            acc.totalRevocationFeeLimit + (cs.map (·.revocationFeeLimit)).sum⟩)
  | [], _, acc, _ => by simp [parseTicketContribsLoop]
  | c :: cs, f, acc, h => by
    have h0 := h 0 (by simp)
    rw [List.length_cons, List.range_succ_eq_map, List.map_cons, List.map_map,
      parseTicketContribsLoop, h0]
    simp only [List.getElem_cons_zero, except_ok_bind, not_true_eq_false, if_false]
    rw [parseTicketContribsLoop_of_parses cs (f ∘ Nat.succ) _ fun i hi => h (i + 1) (by simp; omega)]
    simp only [List.append_assoc, List.singleton_append, List.map_cons, List.sum_cons]
    congr 3 <;> omega

/-- On `2 + 2n` outputs, the loop of `ParseTicketContribs` visits `2, 4, …, 2n`.
Source: `src/stake/staketx.cpp` `ParseTicketContribs` (the `for` header)
Kind: L -/
theorem contribOutputIndexes_eq (tx : CTransaction) (n : Nat) (h : tx.vout.length = 2 + 2 * n) :
    contribOutputIndexes tx = (List.range n).map fun i => ticketContribOutputIndex + 2 * i := by
  rw [contribOutputIndexes, h]
  clear h
  induction n with
  | zero => decide
  | succ n ih =>
    rw [show 2 + 2 * (n + 1) = (2 + 2 * n) + 1 + 1 by omega, List.range_succ, List.range_succ,
      List.filter_append, List.filter_append, ih, List.range_succ, List.map_append]
    simp [ticketContribOutputIndex]


/-- **`ParseTicketContribs` returns the contributions of a purchase laid out as the wallet writes
it, and the sums of their amounts and fee limits.**
Source: `src/stake/staketx.cpp` `ParseTicketContribs`, `ParseTicketContrib`
Kind: T -/
theorem parseTicketContribs_ticketPurchase {tx : CTransaction} {decl : BuyTicketData}
    {stake : CTxOut} {parts : List (TicketContribData × CTxOut)}
    (hvout : tx.vout = ticketPurchaseOutputs decl stake parts)
    (hparts : ∀ p ∈ parts, p.1.Decodable) :
    parseTicketContribs tx = .ok (true, ⟨parts.map Prod.fst,
      ((parts.map Prod.fst).map (·.contributedAmount)).sum,
      ((parts.map Prod.fst).map (·.voteFeeLimit)).sum,
      ((parts.map Prod.fst).map (·.revocationFeeLimit)).sum⟩) := by
  have hlen := length_ticketPurchaseOutputs decl stake parts
  rw [← hvout] at hlen
  have hloop := @parseTicketContribsLoop_of_parses tx (parts.map Prod.fst)
    (fun i => ticketContribOutputIndex + 2 * i) ⟨[], 0, 0, 0⟩ fun i hi => by
      rw [List.length_map] at hi
      have hc := (getElem?_ticketPurchaseOutputs decl stake parts i).1
      rw [List.getElem?_eq_getElem hi, Option.map_some, ← hvout] at hc
      rw [List.getElem_map]
      exact parseTicketContrib_getScriptForTicketContrib hc rfl
        (hparts _ (List.getElem_mem hi)) default
  rw [parseTicketContribs, contribOutputIndexes_eq tx parts.length hlen]
  rw [List.length_map] at hloop
  simpa using hloop

end BwsCoin.Stake
