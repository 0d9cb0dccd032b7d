import FogoYield.Model.Sdk.OnreNav

/-! # The floor that a user signs

`packages/sdk/src/utils/min-out.ts`. Decimals, slippage and fee are integers: a `number` that is none
is refused like one out of range. -/

namespace FogoYield.Sdk

open FogoYield.Library
open FogoYield.Relayer (Direction)

def nttTrimmingDecimals : ℤ := 8
def bpsDenominator : ℤ := 10000

def applyNttTrim (amount decimals : ℤ) : Except JsError ℤ :=
  if decimals < 0 ∨ 255 < decimals then
    .error (.rangeError ("decimals out of range: " ++ toString decimals))
  else if decimals ≤ nttTrimmingDecimals then .ok amount
  else
    let factor : ℤ := 10 ^ (decimals - nttTrimmingDecimals).toNat
    .ok (amount.tdiv factor * factor)

structure ComputeMinSwapOutParams where
  direction : Direction
  postTrimInAmount : ℤ
  offerData : Bytes
  nowUnix : ℤ
  baseDecimals : ℤ
  onycDecimals : ℤ
  slippageBps : ℤ
  withdrawFeeBps : Option ℤ

def outOfBps (name : String) (bps : ℤ) : JsError :=
  .rangeError (name ++ " out of [0, 10_000]: " ++ toString bps)

/-- What the swap is expected to yield: ONyc for the whole input of a deposit, USDC for the input of
a withdrawal behind its fee. -/
def expectedGross (params : ComputeMinSwapOutParams) (price : ℤ) : Except JsError ℤ :=
  match params.direction with
  | .deposit =>
    depositExpectedOut params.postTrimInAmount price params.baseDecimals params.onycDecimals
  | .withdraw =>
    let withdrawFeeBps := params.withdrawFeeBps.getD 0
    if withdrawFeeBps < 0 ∨ 10000 < withdrawFeeBps then
      .error (outOfBps "withdrawFeeBps" withdrawFeeBps)
    else
      let fee := (params.postTrimInAmount * withdrawFeeBps).tdiv bpsDenominator
      let netInput := params.postTrimInAmount - fee
      if netInput ≤ 0 then .error (.rangeError "withdraw fee consumes the entire input")
      else redemptionExpectedOut netInput price params.onycDecimals params.baseDecimals

def computeMinSwapOut (params : ComputeMinSwapOutParams) : Except JsError ℤ :=
  if params.slippageBps < 0 ∨ 10000 < params.slippageBps then
    .error (outOfBps "slippageBps" params.slippageBps)
  else if params.postTrimInAmount ≤ 0 then .error (.rangeError "postTrimInAmount must be > 0")
  else do
    let price ← calculateStepPrice (← parseActiveOfferVector params.offerData params.nowUnix)
      params.nowUnix
    let gross ← expectedGross params price
    let floor := (gross * (bpsDenominator - params.slippageBps)).tdiv bpsDenominator
    if floor ≤ 0 then
      .error (.rangeError
        ("computed min_swap_out is 0 (input too small or slippage too high); " ++
          "on-chain receive rejects a zero floor"))
    else .ok floor

end FogoYield.Sdk
