import FogoYield.Model.Sdk.MinOut
import FogoYield.Verification.Cranker.Fees
import FogoYield.Verification.Sdk.OfferVectors

/-! # Signed floors of withdrawals

The floor is the yield of the same net amount at the price when it is signed, less the slippage. The
price of a vector only rises, so the yield at any later time reaches the floor. -/

namespace FogoYield.Sdk

open FogoYield.Library
open FogoYield.Cranker (applyFeeBps_ok tdiv_fee)
open FogoYield.Relayer (applyFeeBps_spec)

/-! ## Trimming -/

section

variable {amount amount' decimals a a' : ℤ}

/-- A trim keeps the amount, or cuts it to a multiple of a power of ten. -/
theorem applyNttTrim_eq_ok (h : applyNttTrim amount decimals = .ok a) :
    (0 ≤ decimals ∧ decimals ≤ 255) ∧
      (decimals ≤ nttTrimmingDecimals ∧ a = amount ∨
        nttTrimmingDecimals < decimals ∧
          a = truncate amount (10 ^ (decimals - nttTrimmingDecimals).toNat)) := by
  unfold applyNttTrim at h
  split at h
  · cases h
  · rename_i hrange
    refine ⟨by omega, ?_⟩
    split at h
    · exact .inl ⟨‹_›, (Except.ok.inj h).symm⟩
    · exact .inr ⟨Int.not_le.mp ‹_›, (Except.ok.inj h).symm⟩

theorem applyNttTrim_keeps (hrange : 0 ≤ decimals ∧ decimals ≤ 255)
    (h : decimals ≤ nttTrimmingDecimals) : applyNttTrim amount decimals = .ok amount := by
  rw [applyNttTrim, if_neg (by omega), if_pos h]

theorem applyNttTrim_truncates (hrange : 0 ≤ decimals ∧ decimals ≤ 255)
    (h : nttTrimmingDecimals < decimals) : applyNttTrim amount decimals =
      .ok (truncate amount (10 ^ (decimals - nttTrimmingDecimals).toNat)) := by
  rw [applyNttTrim, if_neg (by omega), if_neg (Int.not_le.mpr h)]
  rfl

theorem applyNttTrim_idem (h : applyNttTrim amount decimals = .ok a) :
    applyNttTrim a decimals = .ok a := by
  obtain ⟨hrange, ⟨hkeep, rfl⟩ | ⟨hcut, rfl⟩⟩ := applyNttTrim_eq_ok h
  · exact applyNttTrim_keeps hrange hkeep
  · rw [applyNttTrim_truncates hrange hcut, truncate_truncate]

theorem applyNttTrim_mono (hle : amount ≤ amount') (h : applyNttTrim amount decimals = .ok a)
    (h' : applyNttTrim amount' decimals = .ok a') : a ≤ a' := by
  obtain ⟨-, ⟨hkeep, rfl⟩ | ⟨hcut, rfl⟩⟩ := applyNttTrim_eq_ok h <;>
    obtain ⟨-, ⟨hkeep', rfl⟩ | ⟨hcut', rfl⟩⟩ := applyNttTrim_eq_ok h'
  · exact hle
  · omega
  · omega
  · exact truncate_mono (by positivity) hle

theorem applyNttTrim_le (hamount : 0 ≤ amount) (h : applyNttTrim amount decimals = .ok a) :
    a ≤ amount := by
  obtain ⟨-, ⟨-, rfl⟩ | ⟨-, rfl⟩⟩ := applyNttTrim_eq_ok h
  · exact le_refl _
  · exact truncate_le hamount (by positivity)

end

/-! ## Floors -/

/-- What a floor is made of. -/
theorem computeMinSwapOut_eq_ok {params : ComputeMinSwapOutParams} {m : ℤ}
    (h : computeMinSwapOut params = .ok m) :
    (0 ≤ params.slippageBps ∧ params.slippageBps ≤ 10000) ∧ 0 < params.postTrimInAmount ∧
      ∃ v price gross, parseActiveOfferVector params.offerData params.nowUnix = .ok v ∧
        calculateStepPrice v params.nowUnix = .ok price ∧ expectedGross params price = .ok gross ∧
        m = scale gross (bpsDenominator - params.slippageBps) bpsDenominator := by
  unfold computeMinSwapOut at h
  split at h
  · cases h
  · rename_i hslippage
    split at h
    · cases h
    · rename_i hamount
      obtain ⟨v, hv, h⟩ := bind_ok_iff.mp h
      obtain ⟨price, hprice, h⟩ := bind_ok_iff.mp h
      obtain ⟨gross, hgross, h⟩ := bind_ok_iff.mp h
      simp only at h
      split at h
      · cases h
      · exact ⟨by omega, Int.not_le.mp hamount, v, price, gross, hv, hprice, hgross,
          (Except.ok.inj h).symm⟩

/-- The gross yield of a withdrawal is that of what its fee leaves. -/
theorem expectedGross_withdraw {params : ComputeMinSwapOutParams} {price gross feeBps : ℤ}
    (hdirection : params.direction = .withdraw) (hfee : params.withdrawFeeBps = some feeBps)
    (h : expectedGross params price = .ok gross) :
    redemptionExpectedOut
      (params.postTrimInAmount - (params.postTrimInAmount * feeBps).tdiv bpsDenominator) price
      params.onycDecimals params.baseDecimals = .ok gross := by
  simp only [expectedGross, hdirection, hfee, Option.getD_some] at h
  split at h
  · cases h
  · split at h
    · cases h
    · exact h

/-- A vector whose price rises with every second, from 3 at second 1 to 4 at second 2. -/
def risingOffer : Bytes :=
  List.replicate 72 0 ++ leBytes 8 1 ++ leBytes 8 0 ++ leBytes 8 1000000000 ++
    leBytes 8 31536000000000 ++ leBytes 8 1 ++ List.replicate 496 0

/-- A yield that is a `u64` when the floor is signed need not be one a second later; and a trim
towards zero exceeds an amount below zero. -/
theorem withdraw_floor_overflow :
    let v : OnreOfferVector := ⟨1, 0, 1000000000, 31536000000000, 1⟩
    applyNttTrim 5000000000000000000 9 = .ok 5000000000000000000 ∧
      computeMinSwapOut ⟨.withdraw, 5000000000000000000, risingOffer, 1, 9, 9, 0, some 0⟩ =
        .ok 15000000000000000000 ∧
      parseActiveOfferVector risingOffer 1 = .ok v ∧
      parseActiveOfferVector risingOffer 2 = .ok v ∧
      calculateStepPrice v 2 = .ok 4000000000 ∧
      Relayer.applyFeeBps 5000000000000000000 0 = .ok (5000000000000000000, 0) ∧
      redemptionExpectedOut 5000000000000000000 4000000000 9 9 =
        .error (.error "OnreNavOverflow: redemption_expected_out result out of u64 range") ∧
      applyNttTrim (-15) 9 = .ok (-10) := by
  refine ⟨by decide, by decide +kernel, by decide +kernel, by decide +kernel, by decide, rfl,
    by decide, by decide⟩

/-- A floor signed at `t` is reached by the yield at any later price of the vector, as far as that
yield is a `u64`, for the net amount that the program swaps. -/
theorem withdraw_floor_clearable :
    (∀ (amount decimals a t t' m p' : ℤ) (data : Bytes) (dBase dOnyc slippage : ℤ)
      (feeBps : UInt16) (flowAmount : UInt64) (v : OnreOfferVector),
      feeBps ≤ Relayer.maxFeeBps → applyNttTrim amount decimals = .ok a → flowAmount.toNat = a →
      computeMinSwapOut
          ⟨.withdraw, a, data, t, dBase, dOnyc, slippage, some (feeBps.toNat : ℤ)⟩ = .ok m →
      t ≤ t' → parseActiveOfferVector data t = .ok v → parseActiveOfferVector data t' = .ok v →
      calculateStepPrice v t' = .ok p' →
      ∃ net fee, Relayer.applyFeeBps flowAmount feeBps = .ok (net, fee) ∧
        ∃ out, m ≤ out ∧ redemptionExpectedOut net.toNat p' dOnyc dBase =
          asU64 out "redemption_expected_out result") ∧
    (∀ amount decimals a, applyNttTrim amount decimals = .ok a →
      applyNttTrim a decimals = .ok a ∧ (0 ≤ amount → a ≤ amount)) ∧
    ∀ amount amount' decimals a a', amount ≤ amount' → applyNttTrim amount decimals = .ok a →
      applyNttTrim amount' decimals = .ok a' → a ≤ a' := by
  refine ⟨?_, ?_, ?_⟩
  · intro amount decimals a t t' m p' data dBase dOnyc slippage feeBps flowAmount v hfee _ hflow
      hfloor hle hv hv' hp'
    obtain ⟨hslippage, hamount, v', price, gross, hparse, hprice, hgross, hm⟩ :=
      computeMinSwapOut_eq_ok hfloor
    obtain rfl := Except.ok.inj (hv.symm.trans hparse)
    have hredeem := expectedGross_withdraw rfl rfl hgross
    obtain ⟨hdec, hrange, hyield⟩ := redemptionExpectedOut_eq_ok.mp hredeem
    -- the program's net amount is the one the floor was computed for
    have hpos : 0 < flowAmount := by
      have hpositive : 0 < a := hamount
      rw [UInt64.lt_iff_toNat_lt, UInt64.toNat_zero]
      omega
    obtain ⟨net, fee, hnet⟩ := applyFeeBps_ok hfee hpos
    obtain ⟨hfeeval, hsum, -⟩ := applyFeeBps_spec hnet
    have hamounts : a - (a * (feeBps.toNat : ℤ)).tdiv bpsDenominator = net.toNat := by
      rw [← hflow, bpsDenominator, tdiv_fee, ← hfeeval]
      omega
    simp only [hamounts] at hyield
    refine ⟨net, fee, hnet, redeemed net.toNat p' dOnyc dBase, ?_,
      redemptionExpectedOut_eq hdec.1 hdec.2 _ _⟩
    have hhaircut : 0 ≤ bpsDenominator - slippage ∧ bpsDenominator - slippage ≤ bpsDenominator := by
      have hrange : 0 ≤ slippage ∧ slippage ≤ 10000 := hslippage
      rw [bpsDenominator]
      omega
    have hprices := calculateStepPrice_mono (parseActiveOfferVector_inRange hv) hle hprice hp'
    calc
      m = scale gross (bpsDenominator - slippage) bpsDenominator := hm
      _ ≤ gross := scale_le hrange.1 hhaircut.1 (by decide) hhaircut.2
      _ = redeemed net.toNat price dOnyc dBase := hyield
      _ ≤ redeemed net.toNat p' dOnyc dBase :=
            redeemed_mono_price (Int.natCast_nonneg _) hprices
  · intro amount decimals a h
    exact ⟨applyNttTrim_idem h, fun hamount => applyNttTrim_le hamount h⟩
  · intro amount amount' decimals a a' hle h h'
    exact applyNttTrim_mono hle h h'

/-- The floor of a withdrawal of 1.5 ONyc at a fee of ten basis points. -/
theorem withdraw_floor_clearable_later :
    ∃ net fee, Relayer.applyFeeBps 1500000000 10 = .ok (net, fee) ∧
      ∃ out, 4450545 ≤ out ∧ redemptionExpectedOut net.toNat 4000000000 9 6 =
        asU64 out "redemption_expected_out result" :=
  withdraw_floor_clearable.1 1500000000 9 1500000000 1 2 4450545 4000000000 risingOffer 6 9 100 10
    1500000000 ⟨1, 0, 1000000000, 31536000000000, 1⟩ (by decide) (by decide) (by decide)
    (by decide +kernel) (by decide) (by decide +kernel) (by decide +kernel) (by decide +kernel)

end FogoYield.Sdk
