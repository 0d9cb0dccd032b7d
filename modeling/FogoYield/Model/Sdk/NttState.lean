import FogoYield.Model.Relayer.Ntt

/-! # Inbox items as the SDK decodes them

`decodeNttInboxItem` of `packages/sdk/src/builders/ntt-state.ts`. -/

namespace FogoYield.Sdk

open FogoYield.Library FogoYield.Solana
open FogoYield.Relayer (readBytes readUInt8 readUInt64)

inductive NttInboxReleaseStatus where
  | notApproved
  | releaseAfter (timestamp : ℤ)
  | released
  deriving DecidableEq

structure NttInboxItem where
  init : Bool
  bump : UInt8
  amount : UInt64
  recipientAddress : Pubkey
  votes : ℕ
  releaseStatus : NttInboxReleaseStatus
  deriving DecidableEq

/-- `accountDiscriminator('InboxItem')`. -/
def inboxItemDiscriminator : Bytes := [0xED, 0x8D, 0xCC, 0x67, 0xBB, 0x7A, 0x39, 0x5C]

/-- `readBigInt64LE`: two's complement. -/
def int64OfNat (n : ℕ) : ℤ := if n < 2 ^ 63 then n else (n : ℤ) - 2 ^ 64

def decodeReleaseStatus (cursor : Bytes) : Option NttInboxReleaseStatus := do
  let (tag, cursor) ← readUInt8 cursor
  if tag = 0 then some .notApproved
  else if tag = 1 then do
    let (timestamp, _) ← readUInt64 cursor
    some (.releaseAfter (int64OfNat timestamp.toNat))
  else if tag = 2 then some .released
  else none

/-- A reader past the end of the account throws. -/
def decodeNttInboxItem (data : Bytes) : Option NttInboxItem := do
  guard (8 ≤ data.length ∧ data.take 8 = inboxItemDiscriminator)
  let (init, cursor) ← readUInt8 (data.drop 8)
  let (bump, cursor) ← readUInt8 cursor
  let (amount, cursor) ← readUInt64 cursor
  let (recipientAddress, cursor) ← readBytes 32 cursor
  let (votes, cursor) ← readBytes 16 cursor
  let releaseStatus ← decodeReleaseStatus cursor
  some
    { init := init ≠ 0
      bump := bump
      amount := amount
      recipientAddress := ⟨recipientAddress⟩
      votes := ofLeBytes votes
      releaseStatus := releaseStatus }

end FogoYield.Sdk
