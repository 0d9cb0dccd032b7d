import FogoYield.Library.Interleaving
import FogoYield.Model.Intent.Program
import FogoYield.Model.Relayer.Program

/-! # Both chains at once

The intent program on FOGO and the relayer on Solana, whose steps come in any order. All that passes
between them is what the NTT managers of the two chains burn, publish, redeem and release. -/

namespace FogoYield.Crossing

open FogoYield.Library FogoYield.Solana
open FogoYield.Intent (Crates IntentRuntime IntentWorld TransferArgs burns
  transferBurnDiscriminator)
open FogoYield.Relayer (Env RelayerWorld ReceiveAccounts PairConfig TransceiverMessage InboxItem
  pairConfigAt inboxItemAt inboxItemAddress userInboxSeeds fogoWormholeChainId)

structure Chains where
  crates : Crates
  fogo : IntentRuntime
  solana : Env

abbrev ChainsWorld := IntentWorld × RelayerWorld
abbrev ChainsAction := Intent.Action ⊕ Relayer.Action
abbrev ChainsTransition := Transition ChainsWorld ChainsAction

/-- A step of the system is one of either chain. -/
def Chains.Step (C : Chains) : ChainsWorld → ChainsAction → ChainsWorld → Prop :=
  Interleaved (Intent.Step C.crates C.fogo) (Relayer.Step C.solana)

abbrev ChainsRun (C : Chains) := Run C.Step

/-- What is assumed of either chain, and that both derive addresses alike. -/
structure Chains.Lawful (C : Chains) : Prop where
  fogo : Intent.Lawful C.fogo
  solana : C.solana.Lawful
  derivation : C.fogo.findProgramAddress = C.solana.runtime.findProgramAddress

/-- Neither program has been used. -/
structure Chains.Genesis (C : Chains) (w : ChainsWorld) : Prop where
  fogo : Intent.Genesis C.fogo w.1
  solana : Relayer.Genesis C.solana w.2

/-- The address that the intent program burns under. -/
def Chains.setter (C : Chains) : Pubkey :=
  (C.fogo.findProgramAddress [Intent.intentTransferSeed] Intent.programId).1

/-- Where tokens for a wallet and a floor are sent on Solana. -/
def Chains.inbox (C : Chains) (wallet : Pubkey) (floor : UInt64) : Pubkey :=
  (C.solana.runtime.findProgramAddress (userInboxSeeds wallet floor) Relayer.programId).1

/-! ## What passes between the chains -/

/-- What `receive` reads of NTT: the manager of the leg, the message in the account it was given,
and the item the manager keeps for it. -/
structure Receives (tr : ChainsTransition) (accs : ReceiveAccounts) (manager : Pubkey)
    (m : TransceiverMessage) (item : InboxItem) : Prop where
  action : ∃ ctx args c, tr.act = .inr (.receive ctx accs args) ∧
    pairConfigAt tr.pre.2.accounts accs.pairConfig = some c ∧
    c.receiveNttProgram args.direction = manager
  message : TransceiverMessage.decode (tr.pre.2.accounts accs.nttTransceiverMessage).bytes = some m
  item_at : inboxItemAt manager tr.post.2.accounts accs.nttInboxItem = some item

/-- How two managers are connected: the peer on FOGO of a manager on Solana, what it pays out there
for an amount burned here, and which of the program's burns a message was made of. -/
structure Bridge where
  peer : Pubkey → Pubkey
  credited : Pubkey → UInt64 → UInt64
  origin : Pubkey → TransceiverMessage → ℕ

/-- The item stands for a burn that was made before: at the peer, for the item's recipient and
amount. -/
structure Delivered (B : Bridge) (w : IntentWorld) (manager : Pubkey) (m : TransceiverMessage)
    (item : InboxItem) : Prop where
  burned : ∃ ix, ∃ args : TransferArgs, (burns w)[B.origin manager m]? = some ix ∧
    ix.programId = B.peer manager ∧
    ix.data = transferBurnDiscriminator ++ args.serialize ∧
    item.recipientAddress.bytes = args.recipientAddress ∧
    item.amount = B.credited manager args.amount

/-- The message in the account was validated by the manager, came from FOGO under the setter of the
intent program, and the item is at the address the manager keeps for just this message. -/
structure Validated (C : Chains) (tr : ChainsTransition) (accs : ReceiveAccounts)
    (manager : Pubkey) (m : TransceiverMessage) : Prop where
  owner : (tr.pre.2.accounts accs.nttTransceiverMessage).owner = manager
  address : accs.nttInboxItem = inboxItemAddress C.solana.runtime manager m
  from_chain : m.fromChain = fogoWormholeChainId
  sender : m.sender = C.setter.bytes

/-- What the programs rely on NTT for in a run: a validated message of the intent program is
delivered for one of the program's burns, and a burn is published as one message to one manager. -/
structure Carries (C : Chains) (B : Bridge) (ts : List ChainsTransition) : Prop where
  delivered : ∀ tr ∈ ts, ∀ accs manager m item, Receives tr accs manager m item →
    Validated C tr accs manager m → Delivered B tr.pre.1 manager m item
  once : ∀ tr ∈ ts, ∀ tr' ∈ ts, ∀ accs accs' manager manager' m m' item item',
    Receives tr accs manager m item → Receives tr' accs' manager' m' item' →
    Validated C tr accs manager m → Validated C tr' accs' manager' m' →
    B.origin manager m = B.origin manager' m' → manager = manager' ∧ m = m'

end FogoYield.Crossing
