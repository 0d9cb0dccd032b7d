import FogoYield.Library.Buffer
import FogoYield.Model.Relayer.Ntt
import FogoYield.Model.Sdk.Intent
import FogoYield.Model.Sdk.Pda

/-! # The Ed25519 verifier instruction

`buildIntentVerifierIx` of `packages/sdk/src/builders/intent-transfer.ts` wraps a signed intent, and
`ed25519InlineMessages` of `packages/sdk/src/bridge/signed-intent.ts` takes the messages of such an
instruction out again. -/

namespace FogoYield.Sdk

open FogoYield.Library FogoYield.Solana
open FogoYield.Relayer (slice)

/-! ## Reading -/

def ed25519EntryLen : ℕ := 14
def ed25519CountLen : ℕ := 2
def messageOffsetAt : ℕ := 8
def messageSizeAt : ℕ := 10
def messageIxIndexAt : ℕ := 12

def currentIx : ℕ := 0xFFFF

/-- A read outside of the data throws. -/
inductive RangeError where
  | offsetOutOfBounds
  deriving DecidableEq

/-- `DataView.getUint16`, little endian. -/
def getUint16 (data : Bytes) (offset : ℕ) : Except RangeError ℕ :=
  if offset + 2 ≤ data.length then .ok (ofLeBytes (slice data offset 2))
  else .error .offsetOutOfBounds

/-- `data[offset]`, which is a number only inside of the data. -/
def getUint8 (data : Bytes) (offset : ℕ) : Except RangeError ℕ :=
  match data[offset]? with
  | some b => .ok b.toNat
  | none => .error .offsetOutOfBounds

/-- The loop over the offsets entries, from entry `i` on. -/
def inlineMessages (ixData : Bytes) : (remaining i : ℕ) → Except RangeError (List Bytes)
  | 0, _ => .ok []
  | remaining + 1, i =>
    let entry := ed25519CountLen + i * ed25519EntryLen
    if entry + ed25519EntryLen > ixData.length then .ok []
    else do
      let messageIxIndex ← getUint16 ixData (entry + messageIxIndexAt)
      if messageIxIndex ≠ currentIx then inlineMessages ixData remaining (i + 1)
      else do
        let offset ← getUint16 ixData (entry + messageOffsetAt)
        let size ← getUint16 ixData (entry + messageSizeAt)
        if offset + size > ixData.length then inlineMessages ixData remaining (i + 1)
        else do
          let messages ← inlineMessages ixData remaining (i + 1)
          return slice ixData offset size :: messages

def ed25519InlineMessages (ixData : Bytes) : Except RangeError (List Bytes) :=
  if ixData.length < ed25519CountLen then .ok []
  else do
    let count ← getUint8 ixData 0
    inlineMessages ixData count 0

/-! ## Building -/

def ed25519HeaderLen : ℕ := 16

/-- `Buffer.indexOf`: where the needle first occurs. -/
def indexOfBytes (haystack needle : Bytes) : Option ℕ :=
  if needle.isPrefixOf haystack then some 0
  else match haystack with
    | [] => none
    | _ :: rest => (indexOfBytes rest needle).map (· + 1)

/-- What web3.js has for the precompile. -/
structure Ed25519Program where
  programId : Pubkey
  createInstructionWithPublicKey : (publicKey signature message : Bytes) → Instruction

/-- A verifier instruction with one signature, all of it in the instruction's own data. -/
def verifierData (signatureOffset publicKeyOffset messageOffset messageSize : ℕ) (body : Bytes) :
    Bytes :=
  [1, 0] ++ [signatureOffset, currentIx, publicKeyOffset, currentIx, messageOffset, messageSize,
    currentIx].flatMap (leBytes 2) ++ body

/-- `createInstructionWithPublicKey` writes the key at 16, the signature at 48 and the message at
112. -/
structure Ed25519Program.Lawful (ed25519 : Ed25519Program) : Prop where
  createInstructionWithPublicKey_data : ∀ publicKey signature message : Bytes,
    publicKey.length = 32 → signature.length = 64 → 112 + message.length < 2 ^ 16 →
      (ed25519.createInstructionWithPublicKey publicKey signature message).data =
        verifierData 48 16 112 message.length (publicKey ++ signature ++ message)

/-- `Uint8Array.set` and the setters of `DataView` overwrite the data in place. -/
def buildIntentVerifierIx (ed25519 : Ed25519Program) (walletPublicKey : Pubkey)
    (signature message : Bytes) : Instruction :=
  let publicKey := walletPublicKey.bytes
  match indexOfBytes message publicKey with
  | none => ed25519.createInstructionWithPublicKey publicKey signature message
  | some embeddedAt =>
    let signatureOffset := ed25519HeaderLen
    let messageOffset := signatureOffset + signature.length
    let data := List.replicate (messageOffset + message.length) 0
    let data := overwrite data 0 [1]
    let data := overwrite data 1 [0]
    let data := overwrite data 2 (setUint16 signatureOffset true)
    let data := overwrite data 4 (setUint16 currentIx true)
    let data := overwrite data 6 (setUint16 (messageOffset + embeddedAt) true)
    let data := overwrite data 8 (setUint16 currentIx true)
    let data := overwrite data 10 (setUint16 messageOffset true)
    let data := overwrite data 12 (setUint16 message.length true)
    let data := overwrite data 14 (setUint16 currentIx true)
    let data := overwrite data signatureOffset signature
    let data := overwrite data messageOffset message
    { programId := ed25519.programId, accounts := [], data := data }

end FogoYield.Sdk
