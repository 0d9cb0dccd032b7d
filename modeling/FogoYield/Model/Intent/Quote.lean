import FogoYield.Model.Intent.State

/-! # The relay of a bridged message

The executor's quote and what the relay costs: `bridge/be.rs`, the decimals of `bridge/message.rs`
and `compute_relay_ntt_args` of `bridge/processor/bridge_ntt_tokens.rs`. -/

namespace FogoYield.Intent

open FogoYield.Library FogoYield.Solana

/-! ## Chains -/

inductive WormholeChainId where
  | solana
  | fogo
  deriving DecidableEq

def WormholeChainId.toU16 : WormholeChainId → UInt16
  | .solana => 1
  | .fogo => 51

def WormholeChainId.decimalsNative : WormholeChainId → ℕ
  | .solana => 9
  | .fogo => 9

/-- The decimals of the gas price, such as those of microlamports. -/
def WormholeChainId.decimalsGasPrice : WormholeChainId → ℕ
  | .solana => 15
  | .fogo => 15

def convertChainIdToWormhole (chainId : String) : Option WormholeChainId :=
  if chainId = "solana" then some .solana
  else if chainId = "fogo" then some .fogo
  else none

/-! ## The signed quote -/

structure SignedQuoteHeader where
  /-- Four bytes. -/
  pre : Bytes
  /-- Twenty bytes. -/
  quoterAddress : Bytes
  /-- Thirty-two bytes. -/
  payeeAddress : Bytes
  sourceChain : UInt16
  destinationChain : UInt16
  expiryTime : UInt64
  deriving DecidableEq

structure SignedQuote where
  header : SignedQuoteHeader
  baseFee : UInt64
  destinationGasPrice : UInt64
  sourcePrice : UInt64
  destinationPrice : UInt64
  /-- Sixty-five bytes. -/
  signature : Bytes
  deriving DecidableEq

/-- `SignedQuote::try_from_slice`: the fields in their order, numbers most significant byte first,
and nothing behind them. -/
def SignedQuote.tryFromSlice (bytes : Bytes) : Option SignedQuote :=
  if bytes.length = 165 then
    some {
      header := {
        pre := bytes.take 4
        quoterAddress := (bytes.drop 4).take 20
        payeeAddress := (bytes.drop 24).take 32
        sourceChain := UInt16.ofNat (ofBeBytes ((bytes.drop 56).take 2))
        destinationChain := UInt16.ofNat (ofBeBytes ((bytes.drop 58).take 2))
        expiryTime := UInt64.ofNat (ofBeBytes ((bytes.drop 60).take 8)) }
      baseFee := UInt64.ofNat (ofBeBytes ((bytes.drop 68).take 8))
      destinationGasPrice := UInt64.ofNat (ofBeBytes ((bytes.drop 76).take 8))
      sourcePrice := UInt64.ofNat (ofBeBytes ((bytes.drop 84).take 8))
      destinationPrice := UInt64.ofNat (ofBeBytes ((bytes.drop 92).take 8))
      signature := bytes.drop 100 }
  else none

/-- `try_to_vec`. -/
def SignedQuote.tryToVec (q : SignedQuote) : Bytes :=
  q.header.pre ++ q.header.quoterAddress ++ q.header.payeeAddress ++
    beBytes 2 q.header.sourceChain.toNat ++ beBytes 2 q.header.destinationChain.toNat ++
    beBytes 8 q.header.expiryTime.toNat ++ beBytes 8 q.baseFee.toNat ++
    beBytes 8 q.destinationGasPrice.toNat ++ beBytes 8 q.sourcePrice.toNat ++
    beBytes 8 q.destinationPrice.toNat ++ q.signature

/-! ## Costs -/

def decimalsQuote : ℕ := 10
def decimalsMax : ℕ := 18

def checkedMul128 (x y : ℕ) : IntentResult ℕ :=
  if x * y < 2 ^ 128 then .ok (x * y) else .error (.custom .arithmeticOverflow)

def checkedAdd128 (x y : ℕ) : IntentResult ℕ :=
  if x + y < 2 ^ 128 then .ok (x + y) else .error (.custom .arithmeticOverflow)

def checkedDiv128 (x y : ℕ) : IntentResult ℕ :=
  if y = 0 then .error (.custom .arithmeticOverflow) else .ok (x / y)

def normalize (amount decimalsFrom decimalsTo : ℕ) : IntentResult ℕ :=
  if decimalsTo < decimalsFrom then .ok (amount / 10 ^ (decimalsFrom - decimalsTo))
  else checkedMul128 amount (10 ^ (decimalsTo - decimalsFrom))

def computeExecAmount (toChainId : WormholeChainId) (quote : SignedQuote)
    (gasLimit msgValue : ℕ) : IntentResult UInt64 := do
  let decimalsSourceNative := WormholeChainId.decimalsNative .fogo
  let amountBase ← normalize quote.baseFee.toNat decimalsQuote decimalsSourceNative
  let gasLimitCost ← checkedMul128 gasLimit quote.destinationGasPrice.toNat
  let gasLimitCostNormalized ← normalize gasLimitCost toChainId.decimalsGasPrice decimalsMax
  let gasProduct ← checkedMul128 gasLimitCostNormalized quote.destinationPrice.toNat
  let gasQuotient ← checkedDiv128 gasProduct quote.sourcePrice.toNat
  let amountGas ← normalize gasQuotient decimalsMax decimalsSourceNative
  let msgValueNormalized ← normalize msgValue toChainId.decimalsNative decimalsMax
  let msgProduct ← checkedMul128 msgValueNormalized quote.destinationPrice.toNat
  let msgQuotient ← checkedDiv128 msgProduct quote.sourcePrice.toNat
  let amountMsgValue ← normalize msgQuotient decimalsMax decimalsSourceNative
  let withGas ← checkedAdd128 amountBase amountGas
  let totalAmount ← checkedAdd128 withGas amountMsgValue
  if totalAmount < 2 ^ 64 then return UInt64.ofNat totalAmount
  else .error (.custom .arithmeticOverflow)

def lamportsPerSignature : ℕ := 5000
def rentTokenAccountSolana : ℕ := 2039280

/-- The message value, none of whose additions saturates, and the gas limit. -/
def computeMsgValueAndGasLimitSolana (payDestinationAtaRent : Bool) : ℕ × ℕ :=
  let msgValue := 2 * lamportsPerSignature + 7 * lamportsPerSignature + 1400000
  let msgValue := msgValue + (2 * lamportsPerSignature + 7 * lamportsPerSignature)
  let msgValue := msgValue + (5000 + 3200000)
  let msgValue := msgValue + (5000 + 5000000)
  let msgValue := msgValue + 5000
  let msgValue := if payDestinationAtaRent then msgValue + rentTokenAccountSolana else msgValue
  (msgValue, 250000)

structure RelayNttMessageArgs where
  recipientChain : UInt16
  execAmount : UInt64
  signedQuoteBytes : Bytes
  relayInstructions : Bytes
  deriving DecidableEq

/-- The gas instruction: its tag, the gas limit and the message value as `u128`. -/
def relayInstructions (gasLimit msgValue : ℕ) : Bytes :=
  1 :: (beBytes 16 gasLimit ++ beBytes 16 msgValue)

def computeRelayNttArgs (toChainId : WormholeChainId) (signedQuoteBytes : Bytes)
    (payDestinationAtaRent : Bool) : IntentResult RelayNttMessageArgs :=
  match toChainId with
  | .fogo => .error (.custom .unsupportedToChainId)
  | .solana => do
    let (msgValue, gasLimit) := computeMsgValueAndGasLimitSolana payDestinationAtaRent
    let signedQuote ← liftOption (SignedQuote.tryFromSlice signedQuoteBytes) .invalidNttSignedQuote
    let execAmount ← computeExecAmount toChainId signedQuote gasLimit msgValue
    return ⟨toChainId.toU16, execAmount, signedQuoteBytes, relayInstructions gasLimit msgValue⟩

end FogoYield.Intent
