import FogoYield.Model.Relayer.Ntt
import FogoYield.Model.Sdk.Pda

/-! # Wire decoders of a signed NTT message

`packages/sdk/src/bridge/vaa.ts`, and the encoders of `tests/utils/ntt-accounts.ts` that write the
on-chain account and the wire form of one message. -/

namespace FogoYield.Sdk

open FogoYield.Library FogoYield.Solana
open FogoYield.Relayer (RelayerRuntime ascii slice)

/-- What the decoders throw. -/
inductive VaaError where
  | vaaTooShort (length : ℕ)
  | truncatedSignature (i : ℕ)
  | truncatedBodyHeader
  | transceiverPayloadTooShort (length : ℕ)
  | transceiverPrefixMismatch (got : Bytes)
  | truncatedManagerPayload (declared : ℕ)
  | truncatedTransceiverPayload (declared : ℕ)
  | managerMessageTooShort (length : ℕ)
  | truncatedInnerPayload (declared : ℕ)
  | transferTooShort (length : ℕ)
  | transferPrefixMismatch
  deriving DecidableEq

def throwIf (c : Prop) [Decidable c] (e : VaaError) : Except VaaError Unit :=
  if c then .error e else .ok ()

/-- `DataView.getUint16`, `getUint32` and `getBigUint64`, big-endian. -/
def getUintBe (bytes : Bytes) (offset width : ℕ) : ℕ := ofBeBytes (slice bytes offset width)

/-- The byte at an offset that is known to be in range. -/
def byteAt (bytes : Bytes) (offset : ℕ) : UInt8 := bytes[offset]?.getD 0

/-! ## VAA -/

structure ParsedVaa where
  version : UInt8
  guardianSetIndex : ℕ
  signatures : List Bytes
  timestamp : ℕ
  nonce : ℕ
  emitterChain : ℕ
  emitterAddress : Bytes
  sequence : ℕ
  consistencyLevel : UInt8
  payload : Bytes
  deriving DecidableEq

/-- The signatures `i ..< i + count` from offset `o` on, with the offset behind them. Each is one
byte of guardian index and 65 bytes of signature. -/
def parseSignatures (bytes : Bytes) : (count i o : ℕ) → Except VaaError (List Bytes × ℕ)
  | 0, _, o => .ok ([], o)
  | count + 1, i, o => do
    throwIf (bytes.length < o + 66) (.truncatedSignature i)
    let (signatures, o') ← parseSignatures bytes count (i + 1) (o + 66)
    return (slice bytes o 66 :: signatures, o')

def parseVaa (bytes : Bytes) : Except VaaError ParsedVaa := do
  throwIf (bytes.length < 6) (.vaaTooShort bytes.length)
  let sigCount := (byteAt bytes 5).toNat
  let (signatures, o) ← parseSignatures bytes sigCount 0 6
  throwIf (bytes.length < o + 4 + 4 + 2 + 32 + 8 + 1) .truncatedBodyHeader
  return {
    version := byteAt bytes 0
    guardianSetIndex := getUintBe bytes 1 4
    signatures := signatures
    timestamp := getUintBe bytes o 4
    nonce := getUintBe bytes (o + 4) 4
    emitterChain := getUintBe bytes (o + 8) 2
    emitterAddress := slice bytes (o + 10) 32
    sequence := getUintBe bytes (o + 42) 8
    consistencyLevel := byteAt bytes (o + 50)
    payload := bytes.drop (o + 51) }

/-! ## Transceiver message -/

def whTransceiverPrefix : Bytes := [0x99, 0x45, 0xFF, 0x10]
def nativeTokenTransferPrefix : Bytes := [0x99, 0x4E, 0x54, 0x54]

structure ParsedTransceiverMessage where
  sourceNttManager : Bytes
  recipientNttManager : Bytes
  nttManagerPayload : Bytes
  transceiverPayload : Bytes
  deriving DecidableEq

def parseTransceiverMessage (payload : Bytes) : Except VaaError ParsedTransceiverMessage := do
  throwIf (payload.length < 4 + 32 + 32 + 2) (.transceiverPayloadTooShort payload.length)
  throwIf (slice payload 0 4 ≠ whTransceiverPrefix) (.transceiverPrefixMismatch (slice payload 0 4))
  let mgrLen := getUintBe payload 68 2
  throwIf (payload.length < 70 + mgrLen + 2) (.truncatedManagerPayload mgrLen)
  let xcvrLen := getUintBe payload (70 + mgrLen) 2
  throwIf (payload.length < 72 + mgrLen + xcvrLen) (.truncatedTransceiverPayload xcvrLen)
  return {
    sourceNttManager := slice payload 4 32
    recipientNttManager := slice payload 36 32
    nttManagerPayload := slice payload 70 mgrLen
    transceiverPayload := slice payload (72 + mgrLen) xcvrLen }

/-! ## Manager message -/

structure ParsedNttManagerMessage where
  id : Bytes
  sender : Bytes
  trimmedAmount : ℕ
  trimmedDecimals : UInt8
  sourceToken : Bytes
  toAddress : Bytes
  toChain : ℕ
  deriving DecidableEq

def parseNttManagerMessage (wire : Bytes) : Except VaaError ParsedNttManagerMessage := do
  throwIf (wire.length < 32 + 32 + 2) (.managerMessageTooShort wire.length)
  let innerLen := getUintBe wire 64 2
  throwIf (wire.length < 66 + innerLen) (.truncatedInnerPayload innerLen)
  let inner := slice wire 66 innerLen
  throwIf (inner.length < 4 + 1 + 8 + 32 + 32 + 2) (.transferTooShort inner.length)
  throwIf (slice inner 0 4 ≠ nativeTokenTransferPrefix) .transferPrefixMismatch
  return {
    id := slice wire 0 32
    sender := slice wire 32 32
    trimmedDecimals := byteAt inner 4
    trimmedAmount := getUintBe inner 5 8
    sourceToken := slice inner 13 32
    toAddress := slice inner 45 32
    toChain := getUintBe inner 77 2 }

/-- The bytes whose keccak256 seeds the inbox item. -/
def inboxItemPreimage (fromChain : ℕ) (nttManagerWire : Bytes) : Bytes :=
  setUint16 fromChain false ++ nttManagerWire

def inboxItemMessageHash (rt : RelayerRuntime) (fromChain : ℕ) (nttManagerWire : Bytes) : Bytes :=
  rt.keccak (inboxItemPreimage fromChain nttManagerWire)

def findInboxItemPda (rt : RelayerRuntime) (messageHash : Bytes) (programId : Pubkey) :
    Pubkey × UInt8 :=
  rt.findProgramAddress [ascii "inbox_item", messageHash] programId

def findValidatedTransceiverMessagePda (rt : RelayerRuntime) (fromChain : ℕ) (messageId : Bytes)
    (transceiverProgramId : Pubkey) : Pubkey :=
  (rt.findProgramAddress [ascii "transceiver_message", setUint16 fromChain false, messageId]
    transceiverProgramId).1

structure ResolvedNttVaa where
  vaa : ParsedVaa
  transceiver : ParsedTransceiverMessage
  manager : ParsedNttManagerMessage
  fromChain : ℕ
  nttInboxItem : Pubkey
  nttTransceiverMessage : Pubkey
  recipientOnSolana : Pubkey
  senderOnSource : Pubkey
  deriving DecidableEq

/-- Signed VAA bytes to everything `receive` needs. Without a transceiver program of its own the
manager is the transceiver. -/
def resolveNttVaa (rt : RelayerRuntime) (vaaBytes : Bytes) (nttProgramId : Pubkey)
    (transceiverProgramId : Option Pubkey) : Except VaaError ResolvedNttVaa := do
  let vaa ← parseVaa vaaBytes
  let transceiver ← parseTransceiverMessage vaa.payload
  let manager ← parseNttManagerMessage transceiver.nttManagerPayload
  let messageHash := inboxItemMessageHash rt vaa.emitterChain transceiver.nttManagerPayload
  return {
    vaa := vaa
    transceiver := transceiver
    manager := manager
    fromChain := vaa.emitterChain
    nttInboxItem := (findInboxItemPda rt messageHash nttProgramId).1
    nttTransceiverMessage := findValidatedTransceiverMessagePda rt vaa.emitterChain manager.id
      (transceiverProgramId.getD nttProgramId)
    recipientOnSolana := ⟨manager.toAddress⟩
    senderOnSource := ⟨manager.sender⟩ }

/-! ## Encoders -/

/-- `NttManagerMessageParams`. -/
structure NttManagerMessageParams where
  id : Bytes32
  sender : Bytes32
  trimmedAmount : UInt64
  trimmedDecimals : UInt8
  sourceToken : Bytes32
  toChain : UInt16
  toAddress : Bytes32

structure ValidatedTransceiverMessageParams where
  fromChain : UInt16
  sourceNttManager : Bytes32
  recipientNttManager : Bytes32
  message : NttManagerMessageParams

/-- Borsh: amount before decimals, `to_chain` before `to`, little-endian. -/
def nativeTokenTransferBorsh (p : NttManagerMessageParams) : Bytes :=
  leBytes 8 p.trimmedAmount.toNat ++ [p.trimmedDecimals] ++ p.sourceToken.bytes ++
    leBytes 2 p.toChain.toNat ++ p.toAddress.bytes

def nttManagerMessageBorsh (p : NttManagerMessageParams) : Bytes :=
  p.id.bytes ++ p.sender.bytes ++ nativeTokenTransferBorsh p

/-- Wire: decimals before amount, `to` before `to_chain`, big-endian. -/
def nativeTokenTransferWire (p : NttManagerMessageParams) : Bytes :=
  nativeTokenTransferPrefix ++ [p.trimmedDecimals] ++ beBytes 8 p.trimmedAmount.toNat ++
    p.sourceToken.bytes ++ p.toAddress.bytes ++ beBytes 2 p.toChain.toNat

def nttManagerMessageWire (p : NttManagerMessageParams) : Bytes :=
  let inner := nativeTokenTransferWire p
  p.id.bytes ++ p.sender.bytes ++ beBytes 2 inner.length ++ inner

/-- The 213-byte account `receive` reads. -/
def serializeValidatedTransceiverMessage (p : ValidatedTransceiverMessageParams) : Bytes :=
  Relayer.validatedTransceiverMessageDisc ++ leBytes 2 p.fromChain.toNat ++
    p.sourceNttManager.bytes ++ p.recipientNttManager.bytes ++ nttManagerMessageBorsh p.message

/-- A signature entry of a VAA. -/
structure VaaSignature where
  bytes : Bytes
  length_eq : bytes.length = 66

/-- What a VAA says besides the message it carries. At most 255 guardians sign. -/
structure VaaEnvelope where
  version : UInt8
  guardianSetIndex : UInt32
  signatures : List VaaSignature
  signatures_length : signatures.length < 256
  timestamp : UInt32
  nonce : UInt32
  emitterAddress : Bytes32
  sequence : UInt64
  consistencyLevel : UInt8
  transceiverPayload : Bytes
  transceiverPayload_length : transceiverPayload.length < 2 ^ 16

/-- The transceiver's wrapper around a message. -/
def transceiverWire (e : VaaEnvelope) (p : ValidatedTransceiverMessageParams) : Bytes :=
  whTransceiverPrefix ++ p.sourceNttManager.bytes ++ p.recipientNttManager.bytes ++
    beBytes 2 (nttManagerMessageWire p.message).length ++ nttManagerMessageWire p.message ++
    beBytes 2 e.transceiverPayload.length ++ e.transceiverPayload

def vaaHeader (e : VaaEnvelope) : Bytes :=
  [e.version] ++ beBytes 4 e.guardianSetIndex.toNat ++ [UInt8.ofNat e.signatures.length]

def vaaSignatures (e : VaaEnvelope) : Bytes := (e.signatures.map VaaSignature.bytes).flatten

def vaaBody (e : VaaEnvelope) (p : ValidatedTransceiverMessageParams) : Bytes :=
  beBytes 4 e.timestamp.toNat ++ beBytes 4 e.nonce.toNat ++ beBytes 2 p.fromChain.toNat ++
    e.emitterAddress.bytes ++ beBytes 8 e.sequence.toNat ++ [e.consistencyLevel] ++
    transceiverWire e p

/-- The signed VAA that carries a message. -/
def vaaWire (e : VaaEnvelope) (p : ValidatedTransceiverMessageParams) : Bytes :=
  vaaHeader e ++ vaaSignatures e ++ vaaBody e p

end FogoYield.Sdk
