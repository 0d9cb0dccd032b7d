import FogoYield.Model.Relayer.Outbound
import FogoYield.Model.Sdk.Ntt

/-! # The outbound calls of the relayer client

`send` and `refund` of `packages/sdk/src/client.ts`, with the addresses the client is built with. An
instruction is its named accounts, its argument and its remaining accounts. -/

namespace FogoYield.Sdk

open FogoYield.Library FogoYield.Solana
open FogoYield.Relayer (RelayerRuntime Direction OutboundAccounts)

/-- NTT manager program for USDC.s on Solana mainnet. -/
def nttUsdcProgramId : Pubkey := Pubkey.literal "nttu74CdAmsErx5daJVCQNoDZujswFrskMzonoZSdGk"

/-- NTT manager program for ONyc on Solana mainnet. -/
def nttOnycProgramId : Pubkey := Pubkey.literal "nttpna5vXW7BN2Aa4AfTbkCncJWTEoBsnWvjS87Xgsd"

/-- The refund timeout in slots, which mirrors the program's. -/
def refundTimeoutSlots : ℕ := 54000

/-! ## The client -/

/-- `RelayerClient`, bound to a token pair. Its program is the one of the IDL. -/
structure RelayerClient where
  baseMint : Pubkey
  assetMint : Pubkey

namespace RelayerClient

def configPda (rt : RelayerRuntime) (client : RelayerClient) : Pubkey :=
  (findConfigPda rt client.baseMint client.assetMint relayerProgramId).1

/-- The custody signer, the same for all pairs. -/
def authorityPda (rt : RelayerRuntime) : Pubkey := (findAuthorityPda rt relayerProgramId).1

/-- The custody account of a mint, of the classic token program. -/
def relayerAta (rt : RelayerRuntime) (mint : Pubkey) : Pubkey :=
  associatedTokenAddress rt mint (authorityPda rt)

/-- The side of `flowPdas` that the direction selects. -/
def flowPda (rt : RelayerRuntime) (client : RelayerClient) (direction : Direction)
    (nttInboxItem : Pubkey) : Pubkey :=
  (findFlowPda rt direction (client.configPda rt) nttInboxItem relayerProgramId).1

end RelayerClient

/-! ## Outbound instructions -/

/-- The accounts for publishing that the caller got from NTT's own SDK. -/
structure ReleaseAccounts where
  wormholeProgram : Pubkey
  wormholeBridge : Pubkey
  wormholeFeeCollector : Pubkey
  wormholeSequence : Pubkey
  outboxItemSigner : Pubkey
  wormholeMessage : Option Pubkey
  emitter : Option Pubkey

/-- The parameters of `send` and of `refund`, which are the same. -/
structure OutboundParams where
  payer : Pubkey
  direction : Direction
  baseMint : Pubkey
  assetMint : Pubkey
  nttInboxItem : Pubkey
  rentDestination : Pubkey
  flowAmount : ℤ
  flowRecipient : Bytes
  outboxItem : Pubkey
  nttBaseProgram : Option Pubkey
  nttAssetProgram : Option Pubkey
  release : ReleaseAccounts

/-- An instruction `send` or `refund` of the relayer. -/
structure OutboundIx where
  accounts : OutboundAccounts
  transferLockAccountCount : ℕ
  remaining : List AccountMeta

namespace OutboundParams

def baseManager (params : OutboundParams) : Pubkey := params.nttBaseProgram.getD nttUsdcProgramId
def assetManager (params : OutboundParams) : Pubkey := params.nttAssetProgram.getD nttOnycProgramId

/-- The named accounts of `sendBase` and of `refundBase`. -/
def accounts (rt : RelayerRuntime) (client : RelayerClient) (params : OutboundParams) :
    OutboundAccounts where
  payer := params.payer
  pairConfig := client.configPda rt
  relayerAuthority := RelayerClient.authorityPda rt
  baseMint := params.baseMint
  assetMint := params.assetMint
  baseAta := RelayerClient.relayerAta rt params.baseMint
  assetAta := RelayerClient.relayerAta rt params.assetMint
  nttInboxItem := params.nttInboxItem
  flow := client.flowPda rt params.direction params.nttInboxItem
  rentDestination := params.rentDestination
  tokenProgram := tokenProgram

def releaseParams (params : OutboundParams) (nttProgramId : Pubkey) : ReleaseOutboundParams where
  payer := params.payer
  nttProgramId := nttProgramId
  transceiverProgramId := none
  outboxItem := params.outboxItem
  wormholeProgram := params.release.wormholeProgram
  wormholeBridge := params.release.wormholeBridge
  wormholeFeeCollector := params.release.wormholeFeeCollector
  wormholeSequence := params.release.wormholeSequence
  outboxItemSigner := params.release.outboxItemSigner
  wormholeMessage := params.release.wormholeMessage
  emitter := params.release.emitter

/-- The named accounts and, through `nttProgramId` for `mint`, the two NTT lists. -/
def build (rt : RelayerRuntime) (client : RelayerClient) (params : OutboundParams)
    (nttProgramId mint : Pubkey) : Except NttBuildError OutboundIx := do
  let transferLock ← buildNttTransferLockAccountList rt (clientTransferLock rt
    (RelayerClient.authorityPda rt) mint nttProgramId params.outboxItem params.flowRecipient
    params.flowAmount)
  let releaseAccts ← buildNttReleaseWormholeOutboundAccountList rt
    (params.releaseParams nttProgramId)
  return ⟨params.accounts rt client, nttTransferLockAccountCount, transferLock ++ releaseAccts⟩

end OutboundParams

/-- A deposit pushes the asset out, a withdraw the base. -/
def RelayerClient.send (rt : RelayerRuntime) (client : RelayerClient) (params : OutboundParams) :
    Except NttBuildError OutboundIx :=
  match params.direction with
  | .deposit => params.build rt client params.assetManager params.assetMint
  | .withdraw => params.build rt client params.baseManager params.baseMint

/-- A deposit gives the base back, a withdraw the asset. -/
def RelayerClient.refund (rt : RelayerRuntime) (client : RelayerClient) (params : OutboundParams) :
    Except NttBuildError OutboundIx :=
  match params.direction with
  | .deposit => params.build rt client params.baseManager params.baseMint
  | .withdraw => params.build rt client params.assetManager params.assetMint

end FogoYield.Sdk
