import FogoYield.Model.Relayer.State

/-! # The cranker's swap

The withdraw leg of `packages/cranker/src/relayer/swap.ts`, from the flow it has read to the route
it submits. What the route service answers is an input. -/

namespace FogoYield.Cranker

open FogoYield.Library FogoYield.Solana
open FogoYield.Relayer (PairConfig Flow)

/-- What is asked of the route service. -/
structure RouteRequest where
  inputMint : Pubkey
  outputMint : Pubkey
  amount : ℤ
  otherAmountThreshold : ℤ
  userPublicKey : Pubkey
  deriving DecidableEq

structure JupiterRoute where
  programId : Pubkey
  ixData : Bytes
  routeAccounts : List AccountMeta
  quotedOutAmount : ℤ
  deriving DecidableEq

/-- A `swap` that is submitted, or the reason why none is. -/
inductive SwapPlan where
  | noop (reason : String)
  | submit (request : RouteRequest) (route : JupiterRoute)
  deriving DecidableEq

/-- The input of a withdraw: what the fee leaves of the flow's amount. -/
def netOnyc (cfg : PairConfig) (grossIn : ℤ) : ℤ :=
  let feeOnyc := (grossIn * (cfg.withdrawFeeBps.toNat : ℤ)).tdiv 10000
  grossIn - feeOnyc

def planWithdrawSwap (cfg : PairConfig) (flow : Flow) (relayerAuthorityPda : Pubkey)
    (fetchJupiterRoute : RouteRequest → JupiterRoute) : SwapPlan :=
  let floor : ℤ := flow.minSwapOut.toNat
  let grossIn : ℤ := flow.amount.toNat
  if grossIn ≤ 0 then .noop "flow.amount is zero"
  else
    let amount := netOnyc cfg grossIn
    if amount ≤ 0 then .noop "fee consumed entire amount — config error"
    else
      let request : RouteRequest :=
        ⟨cfg.assetMint, cfg.baseMint, amount, floor, relayerAuthorityPda⟩
      let route := fetchJupiterRoute request
      if route.quotedOutAmount < floor then
        .noop s!"Jupiter quote {route.quotedOutAmount} below user floor min_swap_out {floor}"
      else .submit request route

end FogoYield.Cranker
