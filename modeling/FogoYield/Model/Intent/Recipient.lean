import FogoYield.Model.Relayer.State
import FogoYield.Solana.Base58

/-! # The destination of a bridged amount

`resolve_recipient` of `programs/intent-transfer/src/bridge/processor/bridge_ntt_tokens.rs`, on the
FOGO side. -/

namespace FogoYield.Intent

open FogoYield.Library FogoYield.Solana
open FogoYield.Relayer (RelayerRuntime ascii)

/-- Where the bridged value lands: v0.2 signs the address, v0.3 the floor it derives from. -/
inductive Recipient where
  | address (text : String)
  | minOut (floor : UInt64)
  deriving DecidableEq

/-- The relayer program as the intent program names it. -/
def relayerProgramId : Pubkey := Pubkey.literal "onrenRKgX54qtWeK3cuaTBE71xx7dWMXn82ubH61vAp"

def userInboxSeed : Bytes := ascii "user_inbox"

def hexDigit (c : Char) : Option ℕ :=
  if c.isDigit then some (c.toNat - '0'.toNat)
  else if 'a' ≤ c ∧ c ≤ 'f' then some (c.toNat - 'a'.toNat + 10)
  else if 'A' ≤ c ∧ c ≤ 'F' then some (c.toNat - 'A'.toNat + 10)
  else none

/-- `hex::decode`. -/
def hexDecode : List Char → Option Bytes
  | [] => some []
  | [_] => none
  | high :: low :: rest => do
    let h ← hexDigit high
    let l ← hexDigit low
    let bytes ← hexDecode rest
    return UInt8.ofNat (16 * h + l) :: bytes

/-- Base58 first, else hex with an optional `0x`, left-padded to 32 bytes. -/
def parseRecipientAddress (addressStr : String) : Option Bytes :=
  match Pubkey.fromStr addressStr with
  | some pubkey => some pubkey.bytes
  | none => do
    let chars := addressStr.toList
    let hexStr := if ['0', 'x'].isPrefixOf chars then chars.drop 2 else chars
    let bytes ← hexDecode hexStr
    if bytes.length ≤ 32 then some (List.replicate (32 - bytes.length) 0 ++ bytes) else none

def recipientSeeds (signer : Pubkey) (minOut : UInt64) : List Bytes :=
  [userInboxSeed, signer.bytes, leBytes 8 minOut.toNat]

def resolveRecipient (rt : RelayerRuntime) (recipient : Recipient) (signer : Pubkey) :
    Option Bytes :=
  match recipient with
  | .address addressStr => parseRecipientAddress addressStr
  | .minOut floor =>
    some (rt.findProgramAddress (recipientSeeds signer floor) relayerProgramId).1.bytes

end FogoYield.Intent
