import BwsCoin.Primitives.Transaction

/-!
# Coins

A `Coin` of `src/coins.h`: an unspent output with the height, coinbase flag and class of the
transaction that created it. A spent coin, and the coin `AccessCoin` returns for an outpoint the
view does not have, is one whose output is null (`nValue == -1`).
-/

namespace BwsCoin.Coins

open Stake Primitives

/-- `CTxOut()`: the null output, `nValue = -1` and an empty script.
Source: `src/primitives/transaction.h` `CTxOut::CTxOut()`, `CTxOut::SetNull`
Kind: D -/
def nullTxOut : CTxOut := ⟨-1, []⟩

/-- `CTxOut::IsNull()`. Source: `src/primitives/transaction.h`. Kind: D -/
def CTxOut.isNull (out : CTxOut) : Bool := out.nValue == -1

/-- `Coin`: the output, the coinbase flag, the 31-bit height and the class of the containing
transaction.
Source: `src/coins.h` `class Coin`
Kind: D
Fidelity: exact; `nHeight` is a 31-bit bit-field, whose bound the last field carries -/
structure Coin where
  out : CTxOut
  fCoinBase : Bool
  nHeight : Nat
  txClass : ETxClass
  nHeight_lt : nHeight < 2 ^ 31
  deriving DecidableEq, Repr

namespace Coin

/-- `Coin()`: a null output at height 0, a regular transaction's.
Source: `src/coins.h` `Coin::Coin()`
Kind: D -/
def empty : Coin := ⟨nullTxOut, false, 0, .txRegular, by decide⟩

/-- `IsSpent()`: the output is null. Source: `src/coins.h` `Coin::IsSpent`. Kind: D -/
def isSpent (coin : Coin) : Bool := CTxOut.isNull coin.out

/-- `IsCoinBase()`. Source: `src/coins.h` `Coin::IsCoinBase`. Kind: D -/
def isCoinBase (coin : Coin) : Bool := coin.fCoinBase

/-- Source: `src/coins.h` `Coin::IsSpent`. Kind: L -/
@[simp] theorem isSpent_empty : empty.isSpent = true := rfl

end Coin

end BwsCoin.Coins
