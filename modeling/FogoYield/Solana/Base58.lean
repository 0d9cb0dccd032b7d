import FogoYield.Solana.Account

/-! # Base58 text of a public key -/

namespace FogoYield.Solana

open FogoYield.Library

def base58Alphabet : List Char :=
  "123456789ABCDEFGHJKLMNPQRSTUVWXYZabcdefghijkmnopqrstuvwxyz".toList

/-- The number a digit string stands for in base 58, most significant digit first. -/
def base58Value : List Char → ℕ → Option ℕ
  | [], acc => some acc
  | c :: cs, acc =>
    match base58Alphabet.findIdx? (· == c) with
    | some d => base58Value cs (58 * acc + d)
    | none => none

/-- The bytes of `n`, most significant first, without leading zeros. -/
def minimalBytes (n : ℕ) : Bytes := beBytes ((Nat.log2 n + 8) / 8) n

/-- `bs58::decode`: every leading `1` is a zero byte. -/
def base58Decode (text : List Char) : Option Bytes := do
  let value ← base58Value text 0
  let zeros := (text.takeWhile (· == '1')).length
  return List.replicate zeros 0 ++ if value = 0 then [] else minimalBytes value

/-- `Pubkey::from_str`: at most 44 characters that decode to 32 bytes. -/
def Pubkey.fromStr (text : String) : Option Pubkey :=
  if text.length ≤ 44 then
    match base58Decode text.toList with
    | some bytes => if bytes.length = 32 then some ⟨bytes⟩ else none
    | none => none
  else none

/-- `pubkey!`, which is evaluated when the program is compiled. -/
def Pubkey.literal (text : String) : Pubkey := (Pubkey.fromStr text).getD Pubkey.default

end FogoYield.Solana
