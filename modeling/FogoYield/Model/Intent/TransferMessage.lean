import FogoYield.Model.Intent.Message

/-! # The signed transfer message

`programs/intent-transfer/src/intrachain/message.rs`: what `send_tokens` and `send_native` execute. -/

namespace FogoYield.Intent

open FogoYield.Library FogoYield.Solana

structure Message where
  version : Version
  chainId : String
  symbolOrMint : SymbolOrMint
  amount : String
  recipient : Pubkey
  feeAmount : String
  feeSymbolOrMint : SymbolOrMint
  nonce : UInt64
  deriving DecidableEq

def messagePrefix : String :=
  "Fogo Transfer:\nSigning this intent will transfer the tokens as described below.\n"

variable (I : Intents)

def tagPubkey (key : String) : Parser Pubkey := I.tagKeyValue key (parseTo Pubkey.fromStr)

def messageV0 : Parser Message := do
  Parser.tag (utf8 messagePrefix)
  Parser.lineEnding
  let version ← Parser.verify (tagVersion I "version") (fun v => v.major = 0 ∧ v.minor = 2)
  let chainId ← tagText I "chain_id"
  let symbolOrMint ← tagSymbolOrMint I "token"
  let amount ← tagText I "amount"
  let recipient ← tagPubkey I "recipient"
  let feeSymbolOrMint ← tagSymbolOrMint I "fee_token"
  let feeAmount ← tagText I "fee_amount"
  let nonce ← tagU64 I "nonce"
  Parser.eof
  return {
    version := version
    chainId := chainId
    symbolOrMint := symbolOrMint
    amount := amount
    recipient := recipient
    feeAmount := feeAmount
    feeSymbolOrMint := feeSymbolOrMint
    nonce := nonce }

/-- `Message::try_from`. -/
def messageTryFrom (message : Bytes) : Option Message :=
  match messageV0 I message with
  | some (m, _) => some m
  | none => none

end FogoYield.Intent
