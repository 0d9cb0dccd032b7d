import FogoYield.Model.Relayer.State

/-! # Fees as the SDK computes them

`applyFeeBps` of `packages/sdk/src/utils/pricing.ts`. A `bigint` is an integer, and so is `bps`: a
`number` that is none is refused like one out of range. -/

namespace FogoYield.Sdk

def feeDenominatorBps : ℤ := 10000
def maxFeeBps : ℤ := 1000

structure FeeBreakdown where
  net : ℤ
  fee : ℤ
  deriving DecidableEq

/-- What `applyFeeBps` throws. -/
inductive PricingError where
  | bpsOutOfRange (bps : ℤ)
  | grossNotPositive
  | netNotPositive
  deriving DecidableEq

/-- A quotient of `bigint`s is cut towards zero. -/
def applyFeeBps (gross bps : ℤ) : Except PricingError FeeBreakdown :=
  if bps < 0 ∨ maxFeeBps < bps then .error (.bpsOutOfRange bps)
  else if gross ≤ 0 then .error .grossNotPositive
  else
    let fee := (gross * bps).tdiv feeDenominatorBps
    let net := gross - fee
    if net ≤ 0 then .error .netNotPositive
    else .ok ⟨net, fee⟩

end FogoYield.Sdk
