import FogoYield.Model.Relayer.State

/-! # NTT account layouts and instruction arguments

`programs/relayer/src/ntt.rs`. -/

namespace FogoYield.Relayer

open FogoYield.Library FogoYield.Solana

def nttRedeemIx : Bytes := [184, 12, 86, 149, 70, 196, 97, 225]
def nttReleaseInboundUnlockIx : Bytes := [182, 162, 62, 206, 197, 137, 83, 98]
def nttTransferLockIx : Bytes := [179, 158, 146, 148, 151, 46, 176, 200]
def nttReleaseWormholeOutboundIx : Bytes := [0xCA, 0x57, 0x33, 0xAD, 0x8E, 0xA0, 0xBC, 0xCC]

/-- The `n` bytes of `data` from `offset` on. -/
def slice (data : Bytes) (offset n : ℕ) : Bytes := (data.drop offset).take n

theorem slice_length {data : Bytes} {offset n : ℕ} (h : offset + n ≤ data.length) :
    (slice data offset n).length = n := by
  simp only [slice, List.length_take, List.length_drop]
  omega

def boolByte (b : Bool) : UInt8 := if b then 1 else 0

/-! ## Transfer arguments -/

structure NttTransferArgs where
  amount : UInt64
  recipientChain : UInt16
  recipientAddress : Bytes
  shouldQueue : Bool
  deriving DecidableEq

def NttTransferArgs.packBe (args : NttTransferArgs) : Bytes :=
  beBytes 8 args.amount.toNat ++ beBytes 2 args.recipientChain.toNat ++
    args.recipientAddress ++ [boolByte args.shouldQueue]

def NttTransferArgs.argsHash (rt : RelayerRuntime) (args : NttTransferArgs) : Bytes :=
  rt.keccak args.packBe

/-- The Borsh encoding, which is the instruction data NTT reads. -/
def NttTransferArgs.serialize (args : NttTransferArgs) : Bytes :=
  leBytes 8 args.amount.toNat ++ leBytes 2 args.recipientChain.toNat ++
    args.recipientAddress ++ [boolByte args.shouldQueue]

def deriveSessionAuthority (rt : RelayerRuntime) (program sender : Pubkey)
    (args : NttTransferArgs) : Pubkey × UInt8 :=
  rt.findProgramAddress [nttSessionAuthoritySeed, sender.bytes, args.argsHash rt] program

/-! ## The validated transceiver message -/

def validatedTransceiverMessageDisc : Bytes := [0x61, 0x00, 0x70, 0x7D, 0x6B, 0xDC, 0x25, 0xB5]

def transceiverMessageFromChainOffset : ℕ := 8
def transceiverMessageIdOffset : ℕ := 74
def transceiverMessageSenderOffset : ℕ := 106
def transceiverMessageTrimmedAmountOffset : ℕ := 138
def transceiverMessageTrimmedDecimalsOffset : ℕ := 146
def transceiverMessageSourceTokenOffset : ℕ := 147
def transceiverMessageToChainOffset : ℕ := 179
def transceiverMessageToOffset : ℕ := 181
def transceiverMessageTotalLen : ℕ := 213

def redeemAccountsMinLen : ℕ := 10
def releaseAccountsMinLen : ℕ := 8
def redeemIdxPeer : ℕ := 2
def redeemIdxTransceiverMessage : ℕ := 3
def redeemIdxInboxItem : ℕ := 6
def redeemIdxInboxRateLimit : ℕ := 7
def releaseIdxInboxItem : ℕ := 2
def releaseIdxRecipientAta : ℕ := 3

/-- `NttManagerMessage.sender` of a transceiver message account. -/
def parseFogoSenderFromVtm (data : Bytes) : RelayerResult Bytes := do
  require (transceiverMessageSenderOffset + 32 ≤ data.length) .invalidTransceiverMessage
  require (data.take 8 = validatedTransceiverMessageDisc) .invalidTransceiverMessage
  let out := slice data transceiverMessageSenderOffset 32
  require (out ≠ List.replicate 32 0) .zeroFogoSender
  return out

def deriveNttPeer (rt : RelayerRuntime) (program : Pubkey) (chainId : UInt16) : Pubkey × UInt8 :=
  rt.findProgramAddress [ascii "peer", beBytes 2 chainId.toNat] program

def deriveNttInboxRateLimit (rt : RelayerRuntime) (program : Pubkey) (chainId : UInt16) :
    Pubkey × UInt8 :=
  rt.findProgramAddress [ascii "inbox_rate_limit", beBytes 2 chainId.toNat] program

/-- The key in slot `i` of an account list. -/
def keyAt (accs : List AccountMeta) (i : ℕ) : Option Pubkey := accs[i]?.map AccountMeta.pubkey

def validateNttRedeemReleaseAccounts (rt : RelayerRuntime)
    (redeemAccs releaseAccs : List AccountMeta)
    (nttProgram expectedTransceiverMessage expectedInboxItem expectedRecipientAta : Pubkey) :
    RelayerResult Unit := do
  require (redeemAccountsMinLen ≤ redeemAccs.length ∧ releaseAccountsMinLen ≤ releaseAccs.length)
    .invalidAccountSplit
  require (keyAt redeemAccs redeemIdxTransceiverMessage = some expectedTransceiverMessage)
    .transceiverMessageMismatch
  require (keyAt redeemAccs redeemIdxInboxItem = some expectedInboxItem) .inboxItemMismatch
  require (keyAt redeemAccs redeemIdxPeer =
    some (deriveNttPeer rt nttProgram fogoWormholeChainId).1) .wrongOriginChain
  require (keyAt redeemAccs redeemIdxInboxRateLimit =
    some (deriveNttInboxRateLimit rt nttProgram fogoWormholeChainId).1) .wrongOriginChain
  require (keyAt releaseAccs releaseIdxInboxItem = some expectedInboxItem) .inboxItemMismatch
  require (keyAt releaseAccs releaseIdxRecipientAta = some expectedRecipientAta)
    .recipientAtaMismatch

def inboxItemSeed : Bytes := ascii "inbox_item"

/-- `0x99 N T T`. -/
def nttWirePrefix : Bytes := [0x99, 0x4E, 0x54, 0x54]

/-- The keccak input: origin chain and message, re-encoded from the account's little-endian
Borsh layout to the big-endian wire layout. -/
def inboxItemHashInput (vtmData : Bytes) : Bytes :=
  let fromChainBe := beBytes 2 (ofLeBytes (slice vtmData transceiverMessageFromChainOffset 2))
  let id := slice vtmData transceiverMessageIdOffset 32
  let sender := slice vtmData transceiverMessageSenderOffset 32
  let trimmedAmountBe :=
    beBytes 8 (ofLeBytes (slice vtmData transceiverMessageTrimmedAmountOffset 8))
  let trimmedDecimals := slice vtmData transceiverMessageTrimmedDecimalsOffset 1
  let sourceToken := slice vtmData transceiverMessageSourceTokenOffset 32
  let toChainBe := beBytes 2 (ofLeBytes (slice vtmData transceiverMessageToChainOffset 2))
  let toAddress := slice vtmData transceiverMessageToOffset 32
  let nttWire := nttWirePrefix ++ trimmedDecimals ++ trimmedAmountBe ++ sourceToken ++
    toAddress ++ toChainBe
  let msgWire := id ++ sender ++ beBytes 2 nttWire.length ++ nttWire
  fromChainBe ++ msgWire

def deriveInboxItemPdaFromVtm (rt : RelayerRuntime) (program : Pubkey) (vtmData : Bytes) :
    RelayerResult (Pubkey × UInt8) := do
  require (transceiverMessageTotalLen ≤ vtmData.length) .invalidTransceiverMessage
  return rt.findProgramAddress [inboxItemSeed, rt.keccak (inboxItemHashInput vtmData)] program

/-! ## The inbox item -/

def inboxItemDisc : Bytes := [0xED, 0x8D, 0xCC, 0x67, 0xBB, 0x7A, 0x39, 0x5C]

inductive ReleaseStatus where
  | notApproved
  | releaseAfterDelay (timestamp : UInt64)
  | released
  deriving DecidableEq

structure InboxItem where
  init : Bool
  bump : UInt8
  amount : UInt64
  recipientAddress : Pubkey
  votes : ℕ
  releaseStatus : ReleaseStatus
  deriving DecidableEq

/-- Read `n` bytes off a Borsh cursor. -/
def readBytes (n : ℕ) (cursor : Bytes) : Option (Bytes × Bytes) :=
  if n ≤ cursor.length then some (cursor.take n, cursor.drop n) else none

def readBool (cursor : Bytes) : Option (Bool × Bytes) :=
  match cursor with
  | b :: rest => if b = 0 then some (false, rest) else if b = 1 then some (true, rest) else none
  | [] => none

def readUInt8 (cursor : Bytes) : Option (UInt8 × Bytes) :=
  match cursor with
  | b :: rest => some (b, rest)
  | [] => none

def readUInt64 (cursor : Bytes) : Option (UInt64 × Bytes) :=
  (readBytes 8 cursor).map (fun r => (UInt64.ofNat (ofLeBytes r.1), r.2))

def readReleaseStatus (cursor : Bytes) : Option ReleaseStatus := do
  let (tag, cursor) ← readUInt8 cursor
  if tag = 0 then some .notApproved
  else if tag = 1 then do
    let (timestamp, _) ← readUInt64 cursor
    some (.releaseAfterDelay timestamp)
  else if tag = 2 then some .released
  else none

/-- Borsh `deserialize` on the cursor: bytes after the last field are not looked at. -/
def InboxItem.deserialize (cursor : Bytes) : Option InboxItem := do
  let (init, cursor) ← readBool cursor
  let (bump, cursor) ← readUInt8 cursor
  let (amount, cursor) ← readUInt64 cursor
  let (recipient, cursor) ← readBytes 32 cursor
  let (votes, cursor) ← readBytes 16 cursor
  let releaseStatus ← readReleaseStatus cursor
  some ⟨init, bump, amount, ⟨recipient⟩, ofLeBytes votes, releaseStatus⟩

def InboxItem.tryLoad (data : Bytes) : RelayerResult InboxItem := do
  require (8 ≤ data.length ∧ data.take 8 = inboxItemDisc) .invalidInboxItem
  liftOption (InboxItem.deserialize (data.drop 8)) .invalidInboxItem

end FogoYield.Relayer
