import FogoYield.Model.Sdk.Vaa

/-! # The wire decoders, read by read

The decoders of `Vaa` once more, with every `DataView` read and every index checked: a read outside
of the bytes is a fault of its own, beside the errors the decoders name. -/

namespace FogoYield.Sdk

open FogoYield.Library FogoYield.Solana
open FogoYield.Relayer (slice)

/-- What a decoder can end with besides a result: an error it names, or a read out of range. -/
inductive Thrown where
  | named (e : VaaError)
  | rangeError
  deriving DecidableEq

def named {α : Type} (x : Except VaaError α) : Except Thrown α := x.mapError Thrown.named

/-- `DataView.getUint16`, `getUint32` and `getBigUint64`. -/
def viewUintBe (bytes : Bytes) (offset width : ℕ) : Except Thrown ℕ :=
  if offset + width ≤ bytes.length then .ok (getUintBe bytes offset width) else .error .rangeError

/-- `bytes[offset]`, which is a number only inside of the bytes. -/
def indexByte (bytes : Bytes) (offset : ℕ) : Except Thrown UInt8 :=
  match bytes[offset]? with
  | some b => .ok b
  | none => .error .rangeError

def readSignatures (bytes : Bytes) : (count i o : ℕ) → Except Thrown (List Bytes × ℕ)
  | 0, _, o => .ok ([], o)
  | count + 1, i, o => do
    named (throwIf (bytes.length < o + 66) (.truncatedSignature i))
    let (signatures, o') ← readSignatures bytes count (i + 1) (o + 66)
    return (slice bytes o 66 :: signatures, o')

def readVaa (bytes : Bytes) : Except Thrown ParsedVaa := do
  named (throwIf (bytes.length < 6) (.vaaTooShort bytes.length))
  let version ← indexByte bytes 0
  let guardianSetIndex ← viewUintBe bytes 1 4
  let sigCount ← indexByte bytes 5
  let (signatures, o) ← readSignatures bytes sigCount.toNat 0 6
  named (throwIf (bytes.length < o + 4 + 4 + 2 + 32 + 8 + 1) .truncatedBodyHeader)
  let timestamp ← viewUintBe bytes o 4
  let nonce ← viewUintBe bytes (o + 4) 4
  let emitterChain ← viewUintBe bytes (o + 8) 2
  let sequence ← viewUintBe bytes (o + 42) 8
  let consistencyLevel ← indexByte bytes (o + 50)
  return {
    version := version
    guardianSetIndex := guardianSetIndex
    signatures := signatures
    timestamp := timestamp
    nonce := nonce
    emitterChain := emitterChain
    emitterAddress := slice bytes (o + 10) 32
    sequence := sequence
    consistencyLevel := consistencyLevel
    payload := bytes.drop (o + 51) }

def readTransceiverMessage (payload : Bytes) : Except Thrown ParsedTransceiverMessage := do
  named (throwIf (payload.length < 4 + 32 + 32 + 2) (.transceiverPayloadTooShort payload.length))
  named (throwIf (slice payload 0 4 ≠ whTransceiverPrefix)
    (.transceiverPrefixMismatch (slice payload 0 4)))
  let mgrLen ← viewUintBe payload 68 2
  named (throwIf (payload.length < 70 + mgrLen + 2) (.truncatedManagerPayload mgrLen))
  let xcvrLen ← viewUintBe payload (70 + mgrLen) 2
  named (throwIf (payload.length < 72 + mgrLen + xcvrLen) (.truncatedTransceiverPayload xcvrLen))
  return {
    sourceNttManager := slice payload 4 32
    recipientNttManager := slice payload 36 32
    nttManagerPayload := slice payload 70 mgrLen
    transceiverPayload := slice payload (72 + mgrLen) xcvrLen }

def readNttManagerMessage (wire : Bytes) : Except Thrown ParsedNttManagerMessage := do
  named (throwIf (wire.length < 32 + 32 + 2) (.managerMessageTooShort wire.length))
  let innerLen ← viewUintBe wire 64 2
  named (throwIf (wire.length < 66 + innerLen) (.truncatedInnerPayload innerLen))
  let inner := slice wire 66 innerLen
  named (throwIf (inner.length < 4 + 1 + 8 + 32 + 32 + 2) (.transferTooShort inner.length))
  named (throwIf (slice inner 0 4 ≠ nativeTokenTransferPrefix) .transferPrefixMismatch)
  let trimmedDecimals ← indexByte inner 4
  let trimmedAmount ← viewUintBe inner 5 8
  let toChain ← viewUintBe inner 77 2
  return {
    id := slice wire 0 32
    sender := slice wire 32 32
    trimmedDecimals := trimmedDecimals
    trimmedAmount := trimmedAmount
    sourceToken := slice inner 13 32
    toAddress := slice inner 45 32
    toChain := toChain }

end FogoYield.Sdk
