import FogoYield.Solana.Account

/-! # Reads of many accounts

`packages/sdk/src/rpc/accounts.ts`. `getMultipleAccountsInfo` is what the connection answers to one
call, or nothing where the call is rejected. -/

namespace FogoYield.Sdk

open FogoYield.Solana

def maxKeysPerCall : ℤ := 100

variable {α : Type}

/-- The loop over the chunks from index `i` on. -/
def fetchChunks (getMultipleAccountsInfo : List Pubkey → Option (List (Option α)))
    (pubkeys : List Pubkey) (chunkSize : ℕ) (hpos : 0 < chunkSize) (i : ℕ)
    (out : List (Option α)) : Option (List (Option α)) :=
  if i < pubkeys.length then
    match getMultipleAccountsInfo ((pubkeys.drop i).take chunkSize) with
    | some infos =>
      fetchChunks getMultipleAccountsInfo pubkeys chunkSize hpos (i + chunkSize) (out ++ infos)
    | none => none
  else some out
termination_by pubkeys.length - i

def getMultipleAccountsChunked (getMultipleAccountsInfo : List Pubkey → Option (List (Option α)))
    (pubkeys : List Pubkey) (chunkSize : Option ℤ) : Option (List (Option α)) :=
  if pubkeys.length = 0 then some []
  else
    fetchChunks getMultipleAccountsInfo pubkeys
      (max 1 (min (chunkSize.getD maxKeysPerCall) maxKeysPerCall)).toNat (by omega) 0 []

end FogoYield.Sdk
