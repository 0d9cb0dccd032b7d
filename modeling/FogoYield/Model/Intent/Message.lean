import FogoYield.Library.Parser
import FogoYield.Library.Utf8
import FogoYield.Model.Intent.Recipient

/-! # The signed bridge message

`programs/intent-transfer/src/bridge/message.rs`. The line parser `tag_key_value` and the readings
of a version and of a token come from the crate `solana_intents`, which is a parameter. -/

namespace FogoYield.Intent

open FogoYield.Library FogoYield.Solana

structure Version where
  major : ℕ
  minor : ℕ
  deriving DecidableEq

inductive SymbolOrMint where
  | symbol (text : String)
  | mint (key : Pubkey)
  deriving DecidableEq

structure NttMessage where
  version : Version
  fromChainId : String
  symbolOrMint : SymbolOrMint
  amount : String
  toChainId : String
  recipient : Recipient
  feeAmount : String
  feeSymbolOrMint : SymbolOrMint
  nonce : UInt64
  deriving DecidableEq

inductive BridgeMessage where
  | ntt (message : NttMessage)
  deriving DecidableEq

/-! ## Readings of a line -/

/-- `ParseTo` of a byte slice: UTF-8, then the type's `FromStr`. -/
def parseTo {α : Type} (fromStr : String → Option α) (line : Bytes) : Option α :=
  (fromUtf8? line).bind fromStr

/-- `u64::from_str`: an optional `+`, then decimal digits only, without overflow. -/
def u64FromStr (s : String) : Option UInt64 :=
  let digits := match s.toList with
    | '+' :: rest => rest
    | chars => chars
  if digits ≠ [] ∧ digits.all Char.isDigit ∧ Nat.ofDigitChars 10 digits 0 < 2 ^ 64 then
    some (UInt64.ofNat (Nat.ofDigitChars 10 digits 0))
  else none

/-! ## The crate `solana_intents` -/

structure Intents where
  tagKeyValue : {α : Type} → String → (Bytes → Option α) → Parser α
  versionFromStr : String → Option Version
  symbolOrMintFromStr : String → Option SymbolOrMint

/-- What ends a line: a line ending, or the end of the input. -/
def EndsLine (ending rest : Bytes) : Prop :=
  Parser.IsLineEnding ending ∨ ending = [] ∧ rest = []

/-- `key: ` and the text of a line. -/
def keyValue (key : String) (text : Bytes) : Bytes := utf8 (key ++ ": ") ++ text

/-- What is relied on of the crate: `tag_key_value` reads the literal `key: `, the rest of the
line and its end, and converts the line; it reads every non-empty line it can convert; `0.3` is a
version and every text a symbol or a mint. -/
structure Intents.Lawful (I : Intents) : Prop where
  reads : ∀ {α : Type} {key : String} {convert : Bytes → Option α} {input rest : Bytes} {a : α},
    I.tagKeyValue key convert input = some (a, rest) → ∃ text ending,
      input = keyValue key text ++ ending ++ rest ∧ Parser.newline ∉ text ∧
      EndsLine ending rest ∧ convert text = some a
  accepts : ∀ {α : Type} (key : String) (convert : Bytes → Option α) (text ending rest : Bytes)
    (a : α), text ≠ [] → Parser.newline ∉ text → Parser.carriageReturn ∉ text →
    EndsLine ending rest → convert text = some a →
    I.tagKeyValue key convert (keyValue key text ++ ending ++ rest) = some (a, rest)
  version : I.versionFromStr "0.3" = some ⟨0, 3⟩
  symbolOrMint : ∀ s, s ≠ "" → (I.symbolOrMintFromStr s).isSome

/-! ## The grammar -/

def bridgeMessagePrefix : String := "Fogo Bridge\n"

variable (I : Intents)

def tagText (key : String) : Parser String := I.tagKeyValue key (parseTo some)
def tagU64 (key : String) : Parser UInt64 := I.tagKeyValue key (parseTo u64FromStr)
def tagVersion (key : String) : Parser Version := I.tagKeyValue key (parseTo I.versionFromStr)
def tagSymbolOrMint (key : String) : Parser SymbolOrMint :=
  I.tagKeyValue key (parseTo I.symbolOrMintFromStr)

/-- The message of one minor version; `recipientLine` reads the line the versions differ in. -/
def messageNttOf (minor : ℕ) (recipientLine : Parser Recipient) : Parser NttMessage := do
  Parser.tag (utf8 bridgeMessagePrefix)
  Parser.lineEnding
  let version ← Parser.verify (tagVersion I "version") (fun v => v.major = 0 ∧ v.minor = minor)
  let fromChainId ← tagText I "from_chain_id"
  let toChainId ← tagText I "to_chain_id"
  let symbolOrMint ← tagSymbolOrMint I "token"
  let amount ← tagText I "amount"
  let recipient ← recipientLine
  let feeSymbolOrMint ← tagSymbolOrMint I "fee_token"
  let feeAmount ← tagText I "fee_amount"
  let nonce ← tagU64 I "nonce"
  Parser.eof
  return {
    version := version
    fromChainId := fromChainId
    symbolOrMint := symbolOrMint
    amount := amount
    toChainId := toChainId
    recipient := recipient
    feeAmount := feeAmount
    feeSymbolOrMint := feeSymbolOrMint
    nonce := nonce }

/-- v0.2 signs the destination address. -/
def messageNttV2 : Parser NttMessage :=
  messageNttOf I 2 (do
    let recipientAddress ← tagText I "recipient_address"
    return .address recipientAddress)

/-- v0.3 signs the swap floor, and the address derives from it. -/
def messageNttV3 : Parser NttMessage :=
  messageNttOf I 3 (do
    let minOut ← tagU64 I "min_out"
    return .minOut minOut)

def messageNtt : Parser NttMessage := Parser.alt (messageNttV2 I) (messageNttV3 I)

/-- `BridgeMessage::try_from`. -/
def bridgeMessageTryFrom (message : Bytes) : Option BridgeMessage :=
  match messageNtt I message with
  | some (m, _) => some (.ntt m)
  | none => none

end FogoYield.Intent
