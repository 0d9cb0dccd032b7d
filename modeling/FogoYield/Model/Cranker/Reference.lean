import FogoYield.Model.Cranker.Reads
import FogoYield.Model.Relayer.Reference
import FogoYield.Model.Sdk.Vaa

/-! # A reference feed

Transfers of one token from one chain to another, numbered by their sequence, and the transfers
of the reference chain. -/

namespace FogoYield.Cranker

open FogoYield.Library FogoYield.Solana FogoYield.Sdk
open FogoYield.Relayer (RelayerWorld Action referenceEnv pairConfigKey nttUsdcProgram usdcMint
  inboxItemKey bootstrapAction initializeAction receiveAction swapAction sendAction)

/-! ## A feed of transfers -/

def zeros : Bytes32 := ⟨List.replicate 32 0, rfl⟩

def feedEnvelope (sequence : UInt64) : VaaEnvelope where
  version := 1
  guardianSetIndex := 4
  signatures := []
  signatures_length := by decide
  timestamp := 0
  nonce := 0
  emitterAddress := zeros
  sequence := sequence
  consistencyLevel := 0
  transceiverPayload := []
  transceiverPayload_length := by decide

/-- The id of a message is its sequence number, as the manager writes it. -/
def feedMessage (fromChain toChain : UInt16) (sequence : UInt64) :
    ValidatedTransceiverMessageParams where
  fromChain := fromChain
  sourceNttManager := zeros
  recipientNttManager := zeros
  message := {
    id := ⟨beBytes 32 sequence.toNat, by simp⟩
    sender := zeros
    trimmedAmount := 1000000
    trimmedDecimals := 6
    sourceToken := zeros
    toChain := toChain
    toAddress := zeros }

def feedVaa (fromChain toChain : UInt16) (sequence : UInt64) : WormholescanVaa :=
  ⟨vaaWire (feedEnvelope sequence) (feedMessage fromChain toChain sequence), sequence.toNat, none⟩

/-- Nine VAAs, the newest first. -/
def burst (fromChain toChain : UInt16) : List WormholescanVaa :=
  [9, 8, 7, 6, 5, 4, 3, 2, 1].map (feedVaa fromChain toChain)

/-! ## The transfers -/

/-- The transfer of the reference deposit. -/
def depositParams : ValidatedTransceiverMessageParams where
  fromChain := 51
  sourceNttManager := zeros
  recipientNttManager := zeros
  message := {
    id := ⟨List.replicate 32 3, rfl⟩
    sender := ⟨Relayer.fogoSetter.bytes, by decide⟩
    trimmedAmount := Relayer.depositAmount
    trimmedDecimals := 6
    sourceToken := ⟨List.replicate 32 4, rfl⟩
    toChain := 1
    toAddress := ⟨Relayer.userInboxAuthority.bytes, by decide⟩ }

def depositVaa : WormholescanVaa := ⟨vaaWire (feedEnvelope 1) depositParams, 1, none⟩

/-- The transfer of the reference withdraw. -/
def withdrawParams : ValidatedTransceiverMessageParams where
  fromChain := 51
  sourceNttManager := zeros
  recipientNttManager := zeros
  message := {
    id := ⟨List.replicate 32 6, rfl⟩
    sender := ⟨Relayer.fogoSetter.bytes, by decide⟩
    trimmedAmount := Relayer.withdrawAmount
    trimmedDecimals := 8
    sourceToken := ⟨List.replicate 32 5, rfl⟩
    toChain := 1
    toAddress := ⟨Relayer.withdrawInboxAuthority.bytes, by decide⟩ }

def withdrawVaa : WormholescanVaa := ⟨vaaWire (feedEnvelope 2) withdrawParams, 2, none⟩

/-- The scan of the reference deposit. -/
def depositScan (phase : ScanPhase) : VaaScan :=
  ⟨.deposit, depositVaa, nttUsdcProgram, usdcMint, inboxItemKey, phase⟩

def depositReads (w : RelayerWorld) : VaaReads :=
  readsAt referenceEnv.runtime pairConfigKey w.accounts false .deposit

def depositClosed : VaaResolution := ⟨1, some ((depositScan .flow).scanned .closed), true⟩

/-- A scan that finds no flow, then an item that was received in the meantime. -/
def staleEvents : List EnumeratorEvent :=
  [.chain bootstrapAction, .chain initializeAction, .start .deposit depositVaa, .read 0 false,
   .chain receiveAction, .read 0 false, .read 0 false, .finish 0]

/-- A deposit that is sent. -/
def sentActions : List Action :=
  [bootstrapAction, initializeAction, receiveAction, swapAction, sendAction]

/-- A scan of the deposit behind its end. -/
def sentEvents : List EnumeratorEvent :=
  sentActions.map .chain ++
    [.start .deposit depositVaa, .read 0 false, .read 0 false, .read 0 false, .finish 0]

end FogoYield.Cranker
