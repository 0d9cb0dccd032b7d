import FogoYield.Model.Intent.Message
import FogoYield.Model.Sdk.Intent

/-! # A reference line parser

A parser that behaves as the crate does, and a message to read. -/

namespace FogoYield.Intent

open FogoYield.Library FogoYield.Solana FogoYield.Sdk
open FogoYield.Library.Parser (newline carriageReturn)

/-- What stands behind the end of a line. -/
def behindLine : Bytes → Option Bytes
  | [] => some []
  | b :: rest =>
    if b = newline then some rest
    else
      match rest with
      | c :: rest => if b = carriageReturn ∧ c = newline then some rest else none
      | [] => none

def inLine (b : UInt8) : Bool := b ≠ newline ∧ b ≠ carriageReturn

def referenceTagKeyValue {α : Type} (key : String) (convert : Bytes → Option α) : Parser α := do
  Parser.tag (utf8 (key ++ ": "))
  fun input => do
    let rest ← behindLine (input.dropWhile inLine)
    let a ← convert (input.takeWhile inLine)
    return (a, rest)

/-- `major.minor`. -/
def referenceVersionFromStr (s : String) : Option Version :=
  match s.toList.splitOn '.' with
  | [major, minor] => do
    let major ← u64FromStr (String.ofList major)
    let minor ← u64FromStr (String.ofList minor)
    return ⟨major.toNat, minor.toNat⟩
  | _ => none

/-- A public key is a mint, any other text a symbol. -/
def referenceSymbolOrMintFromStr (s : String) : Option SymbolOrMint :=
  match Pubkey.fromStr s with
  | some key => some (.mint key)
  | none => some (.symbol s)

def referenceIntents : Intents where
  tagKeyValue := referenceTagKeyValue
  versionFromStr := referenceVersionFromStr
  symbolOrMintFromStr := referenceSymbolOrMintFromStr

/-- A transfer of ten dollars out of FOGO. -/
def bridgeOutParams (minOut : ℤ) : BuildBridgeOutIntentMessageParams where
  fromChainId := "fogo-mainnet"
  toChainId := "solana"
  tokenSymbolOrMint := "USDC.s"
  amount := "10.000000"
  feeTokenSymbolOrMint := "USDC.s"
  feeAmount := "2.000000"
  minOut := minOut
  nonce := 8

end FogoYield.Intent
