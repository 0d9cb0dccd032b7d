import FogoYield.Model.Crossing.Chains
import FogoYield.Model.Intent.ReferenceChain
import FogoYield.Model.Relayer.Reference

/-! # Both reference chains, connected

The 10 USDC that the wallet bridges on FOGO are received on Solana, swapped for ONyc and sent
back to it. -/

namespace FogoYield.Crossing

open FogoYield.Library FogoYield.Solana
open FogoYield.Intent (messageHash walletItem walletFlow bridgedAmount)
open FogoYield.Relayer hiding Step Action

/-- The message that the manager on FOGO publishes for the burn. -/
def walletMessage : TransceiverMessage where
  fromChain := 51
  id := Intent.outboxItem.bytes
  sender := Intent.intentSetter.bytes
  amount := bridgedAmount
  decimals := 6
  sourceToken := Intent.usdcMint.bytes
  toAddress := Intent.walletInbox.bytes
  toChain := 1

/-- The account the transceiver on Solana wrote for it. -/
def walletMessageBytes : Bytes :=
  validatedTransceiverMessageDisc ++ leBytes 2 51 ++ List.replicate 64 5 ++ walletMessage.id ++
    walletMessage.sender ++ leBytes 8 bridgedAmount.toNat ++ [6] ++ walletMessage.sourceToken ++
    leBytes 2 1 ++ walletMessage.toAddress

/-- Solana derives its addresses as FOGO does. -/
def solanaBase : RelayerRuntime where
  findProgramAddress := Intent.referenceBook.find
  createProgramAddress := Intent.referenceBook.create
  keccak input :=
    if input = beBytes 2 51 ++ walletMessage.wire then messageHash else referenceKeccak input
  minimumBalance n := (128 + n) * 6960
  invoke _ _ _ := none

def referenceChains : Chains where
  crates := Intent.referenceCrates
  fogo := Intent.referenceRuntime
  solana := envOn solanaBase

/-- The managers of the two chains have the same addresses, and pay out what was burned. The one
burn of the wallet is what its message was made of. -/
def referenceBridge : Bridge where
  peer p := p
  credited _ amount := amount
  origin _ _ := 0

/-! ## Instructions on Solana -/

/-- The account of the message. -/
def messageAccount : Account RelayerData := ⟨2000000, nttUsdcProgram, .raw walletMessageBytes⟩

def solanaGenesis : RelayerWorld :=
  (Relayer.genesis 1000000000).setAccount transceiverMessage messageAccount

def chainsGenesis : ChainsWorld := (Intent.genesis, solanaGenesis)

/-- The account lists of the deposit, for the wallet's own item. -/
def forWallet (metas : List AccountMeta) : List AccountMeta :=
  metas.map (fun m => if m.pubkey = inboxItemKey then { m with pubkey := walletItem } else m)

def walletReceiveContext : Context := ⟨[cranker], forWallet (redeemMetas ++ releaseMetas)⟩

def walletReceiveAccounts : ReceiveAccounts :=
  { receiveAccounts with nttInboxItem := walletItem, flow := walletFlow }

def walletReceive : Relayer.Action := .receive walletReceiveContext walletReceiveAccounts receiveArgs

def walletFlowAccounts : FlowAccounts :=
  { flowAccounts with nttInboxItem := walletItem, flow := walletFlow }

def walletSwapContext : Context :=
  ⟨[], [readonly relayerKey, writable baseAta, writable offerUsdc, writable offerOnyc,
    writable assetAta]⟩

def walletSwapAccounts : SwapAccounts :=
  { walletFlowAccounts with
    feeVault := feeVault
    swapProgram := onreProgram
    swapDelegate := relayerKey }

def walletSwapData : Bytes := leBytes 8 bridgedAmount.toNat ++ leBytes 8 offerAmount.toNat

def walletSwap : Relayer.Action := .swap walletSwapContext walletSwapAccounts walletSwapData

def walletSend : Relayer.Action :=
  .send ⟨[cranker, outboxItem], lockMetas relayerKey onycMint assetAta outboxItem onycCustody
      sendSession ++ publishMetas cranker outboxItem⟩
    { walletFlowAccounts with
      payer := cranker
      rentDestination := cranker } 12

end FogoYield.Crossing
