import FogoYield.Library.Buffer
import FogoYield.Model.Relayer.Ntt
import FogoYield.Model.Sdk.Pda

/-! # OnRe's net asset value

`packages/sdk/src/utils/onre-nav.ts`. A `bigint` is an integer, whose quotients are cut towards
zero. -/

namespace FogoYield.Sdk

open FogoYield.Library
open FogoYield.Relayer (slice)

/-- A thrown `Error` or `RangeError`. -/
inductive JsError where
  | error (message : String)
  | rangeError (message : String)
  deriving DecidableEq

def onreOfferAccountSize : ℕ := 608
def onreOfferVectorsOffset : ℕ := 72
def onreOfferVectorSize : ℕ := 40
def onreOfferMaxVectors : ℕ := 10
def onrePriceDenominator : ℤ := 1000000000
def onreAprScale : ℤ := 1000000
def onreSecondsInYear : ℤ := 31536000

structure OnreOfferVector where
  startTime : ℤ
  baseTime : ℤ
  basePrice : ℤ
  apr : ℤ
  priceFixDuration : ℤ
  deriving DecidableEq

def asU64 (x : ℤ) (label : String) : Except JsError ℤ :=
  if x < 0 ∨ 2 ^ 64 - 1 < x then
    .error (.error ("OnreNavOverflow: " ++ label ++ " out of u64 range"))
  else .ok x

/-- `10n ** BigInt(decimals)`, which throws for a negative exponent. -/
def bigintPow10 (decimals : ℤ) : Except JsError ℤ :=
  if decimals < 0 then .error (.rangeError "Exponent must be non-negative")
  else .ok (10 ^ decimals.toNat)

def redemptionExpectedOut (tokenInAmount price tokenInDecimals tokenOutDecimals : ℤ) :
    Except JsError ℤ := do
  let powIn ← bigintPow10 tokenInDecimals
  let powOut ← bigintPow10 tokenOutDecimals
  let num := tokenInAmount * price * powOut
  let den := powIn * onrePriceDenominator
  asU64 (num.tdiv den) "redemption_expected_out result"

def depositExpectedOut (usdcInAmount price usdcDecimals onycDecimals : ℤ) : Except JsError ℤ :=
  if price ≤ 0 then .error (.error "OnreNoActiveVector: price must be positive")
  else do
    let powOut ← bigintPow10 onycDecimals
    let powIn ← bigintPow10 usdcDecimals
    let num := usdcInAmount * powOut * onrePriceDenominator
    let den := price * powIn
    asU64 (num.tdiv den) "deposit_expected_out result"

/-! ## Offers -/

/-- `view.getBigUint64(offset, true)`. -/
def getBigUint64 (data : Bytes) (offset : ℕ) : ℤ := ofLeBytes (slice data offset 8)

/-- The vector in slot `i`. -/
def offerVector (data : Bytes) (i : ℕ) : OnreOfferVector :=
  let off := onreOfferVectorsOffset + i * onreOfferVectorSize
  { startTime := getBigUint64 data off
    baseTime := getBigUint64 data (off + 8)
    basePrice := getBigUint64 data (off + 16)
    apr := getBigUint64 data (off + 24)
    priceFixDuration := getBigUint64 data (off + 32) }

/-- One turn of the loop over the slots. -/
def pickVector (now : ℤ) (best : Option OnreOfferVector) (v : OnreOfferVector) :
    Option OnreOfferVector :=
  if v.startTime = 0 ∨ now < v.startTime then best
  else
    match best with
    | none => some v
    | some b => if b.startTime < v.startTime then some v else some b

def parseActiveOfferVector (data : Bytes) (now : ℤ) : Except JsError OnreOfferVector :=
  if data.length < onreOfferAccountSize then
    .error (.error "OnreOfferTooShort: account data shorter than pinned layout")
  else
    match ((List.range onreOfferMaxVectors).map (offerVector data)).foldl (pickVector now) none with
    | none =>
      .error (.error "OnreNoActiveVector: no qualifying pricing vector for current clock")
    | some best => .ok best

def calculateStepPrice (v : OnreOfferVector) (now : ℤ) : Except JsError ℤ :=
  if now < v.baseTime then .error (.error "OnreNoActiveVector: now < base_time")
  else if v.priceFixDuration = 0 then
    .error (.error "OnreNoActiveVector: price_fix_duration == 0")
  else
    let elapsed := now - v.baseTime
    let step := elapsed.tdiv v.priceFixDuration
    let stepEnd := (step + 1) * v.priceFixDuration
    let factorDen := onreAprScale * onreSecondsInYear
    let yPart := v.apr * stepEnd
    let factorNum := factorDen + yPart
    let priceU128 := (v.basePrice * factorNum).tdiv factorDen
    asU64 priceU128 "calculate_step_price result"

/-- `view.setBigUint64(offset, value, true)`, inside the buffer. -/
def viewSetBigUint64 (data : Bytes) (offset : ℕ) (value : ℤ) : Bytes :=
  overwrite data offset (setBigUint64 value true)

/-- One turn of the loop over the vectors. -/
def putVector (data : Bytes) (slot : OnreOfferVector × ℕ) : Bytes :=
  let (v, i) := slot
  let off := onreOfferVectorsOffset + i * onreOfferVectorSize
  let data := viewSetBigUint64 data off v.startTime
  let data := viewSetBigUint64 data (off + 8) v.baseTime
  let data := viewSetBigUint64 data (off + 16) v.basePrice
  let data := viewSetBigUint64 data (off + 24) v.apr
  viewSetBigUint64 data (off + 32) v.priceFixDuration

def synthOfferBuffer (vectors : List OnreOfferVector) : Bytes :=
  (vectors.take onreOfferMaxVectors).zipIdx.foldl putVector
    (List.replicate onreOfferAccountSize 0)

end FogoYield.Sdk
