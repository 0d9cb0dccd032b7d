import FogoYield.Model.Cranker.BoundedMap
import FogoYield.Model.Sdk.WalletRecovery

/-! # The wallet and the floor of a `receive`

How `receive` of `packages/cranker/src/relayer/receive.ts` finds the pair whose inbox address is the
recipient of the VAA, and what it remembers of it. -/

namespace FogoYield.Cranker

open FogoYield.Library FogoYield.Solana FogoYield.Sdk
open FogoYield.Relayer (RelayerRuntime)

structure ReceiveInput where
  fogoTx : String
  /-- The caller may give both and skip the recovery. -/
  userWallet : Option Pubkey
  minSwapOut : Option ℤ

inductive Recovery where
  | selected (matched : RecoveredWalletAndMinOut)
  | noop
  | error (err : RecoveryError)
  deriving DecidableEq

def deriveInboxAuthority (rt : RelayerRuntime) (programId wallet : Pubkey) (minSwapOut : ℤ) :
    Pubkey :=
  (findUserInboxWithMinPda rt wallet minSwapOut programId).1

/-- The pair's inbox is the recipient. -/
def derivesRecipient (rt : RelayerRuntime) (programId recipientOnSolana : Pubkey)
    (c : RecoveredWalletAndMinOut) : Bool :=
  deriveInboxAuthority rt programId c.userWallet c.minSwapOut = recipientOnSolana

/-- `withTimeout`. -/
def withTimeout {α : Type} (timesOut : Bool) (result : Except RecoveryError α) :
    Except RecoveryError α :=
  if timesOut then .error .timeout else result

abbrev UserWalletCache := BoundedMap String RecoveredWalletAndMinOut

/-- The branch of `receive` that decides about the pair, with the cache behind it. -/
def recoverForReceive (rt : RelayerRuntime) (programId : Pubkey) (fogoConnection : FogoConnection)
    (timesOut : Bool) (input : ReceiveInput) (recipientOnSolana : Pubkey)
    (userWalletCache : UserWalletCache) : Recovery × UserWalletCache :=
  match input.userWallet, input.minSwapOut with
  | some userWallet, some minSwapOut => (.selected ⟨userWallet, minSwapOut⟩, userWalletCache)
  | _, _ =>
    let derives := derivesRecipient rt programId recipientOnSolana
    match (userWalletCache.get input.fogoTx).filter derives with
    | some matched => (.selected matched, userWalletCache.set input.fogoTx matched)
    | none =>
      match withTimeout timesOut (recoverWalletAndMinOutCandidates fogoConnection input.fogoTx
          defaultIntentProgramIds) with
      | .error err => (.error err, userWalletCache)
      | .ok candidates =>
        match candidates.find? derives with
        | none => (.noop, userWalletCache)
        | some matched => (.selected matched, userWalletCache.set input.fogoTx matched)

end FogoYield.Cranker
