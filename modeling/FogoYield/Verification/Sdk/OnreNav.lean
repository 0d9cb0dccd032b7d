import FogoYield.Library.Rate
import FogoYield.Model.Sdk.OnreNav
import Mathlib.Tactic.Ring

/-! # Rounding of the net asset value

Both conversions are an amount at a rate, and the two rates are inverse to each other. The price
of a vector depends on the time through the number of completed steps only. -/

namespace FogoYield.Sdk

open FogoYield.Library

/-! ## Results -/

theorem asU64_eq_ok {x y : ℤ} {label : String} :
    asU64 x label = .ok y ↔ (0 ≤ x ∧ x ≤ 2 ^ 64 - 1) ∧ y = x := by
  unfold asU64
  split
  · exact ⟨nofun, fun h => by omega⟩
  · exact ⟨fun h => ⟨by omega, (Except.ok.inj h).symm⟩, fun h => by rw [h.2]⟩

/-- One unit of a token. -/
def unitOf (decimals : ℤ) : ℤ := 10 ^ decimals.toNat

theorem unitOf_pos (decimals : ℤ) : 0 < unitOf decimals := by
  unfold unitOf
  positivity

theorem bigintPow10_eq {decimals : ℤ} (h : 0 ≤ decimals) :
    bigintPow10 decimals = .ok (unitOf decimals) := if_neg (Int.not_lt.mpr h)

theorem bigintPow10_ne_ok {decimals : ℤ} (h : ¬ 0 ≤ decimals) :
    bigintPow10 decimals = .error (.rangeError "Exponent must be non-negative") :=
  if_pos (Int.not_le.mp h)

/-- What a redemption yields before it is checked. -/
def redeemed (x p dIn dOut : ℤ) : ℤ :=
  scale x (p * unitOf dOut) (unitOf dIn * onrePriceDenominator)

/-- What a deposit yields before it is checked. -/
def deposited (x p dIn dOut : ℤ) : ℤ :=
  scale x (unitOf dOut * onrePriceDenominator) (p * unitOf dIn)

theorem redemptionExpectedOut_eq {dIn dOut : ℤ} (hin : 0 ≤ dIn) (hout : 0 ≤ dOut) (x p : ℤ) :
    redemptionExpectedOut x p dIn dOut =
      asU64 (redeemed x p dIn dOut) "redemption_expected_out result" := by
  rw [redeemed, scale, ← mul_assoc]
  simp only [redemptionExpectedOut, bigintPow10_eq hin, bigintPow10_eq hout]
  rfl

theorem redemptionExpectedOut_eq_ok {x p dIn dOut out : ℤ} :
    redemptionExpectedOut x p dIn dOut = .ok out ↔
      (0 ≤ dIn ∧ 0 ≤ dOut) ∧ (0 ≤ out ∧ out ≤ 2 ^ 64 - 1) ∧ out = redeemed x p dIn dOut := by
  by_cases hdec : 0 ≤ dIn ∧ 0 ≤ dOut
  · rw [redemptionExpectedOut_eq hdec.1 hdec.2, asU64_eq_ok]
    constructor
    · rintro ⟨hrange, rfl⟩
      exact ⟨hdec, hrange, rfl⟩
    · rintro ⟨-, hrange, rfl⟩
      exact ⟨hrange, rfl⟩
  · refine ⟨?_, fun h => absurd h.1 hdec⟩
    intro h
    unfold redemptionExpectedOut at h
    by_cases hin : 0 ≤ dIn
    · rw [bigintPow10_eq hin, bigintPow10_ne_ok (fun hout => hdec ⟨hin, hout⟩)] at h
      cases h
    · rw [bigintPow10_ne_ok hin] at h
      cases h

theorem depositExpectedOut_eq_ok {x p dIn dOut out : ℤ} :
    depositExpectedOut x p dIn dOut = .ok out ↔
      0 < p ∧ (0 ≤ dIn ∧ 0 ≤ dOut) ∧ (0 ≤ out ∧ out ≤ 2 ^ 64 - 1) ∧
        out = deposited x p dIn dOut := by
  unfold depositExpectedOut
  by_cases hp : 0 < p
  · rw [if_neg (Int.not_le.mpr hp), and_iff_right hp]
    by_cases hdec : 0 ≤ dIn ∧ 0 ≤ dOut
    · rw [bigintPow10_eq hdec.1, bigintPow10_eq hdec.2, deposited, scale, ← mul_assoc]
      refine asU64_eq_ok.trans ?_
      constructor
      · rintro ⟨hrange, rfl⟩
        exact ⟨hdec, hrange, rfl⟩
      · rintro ⟨-, hrange, rfl⟩
        exact ⟨hrange, rfl⟩
    · refine ⟨?_, fun h => absurd h.1 hdec⟩
      intro h
      by_cases hout : 0 ≤ dOut
      · rw [bigintPow10_eq hout, bigintPow10_ne_ok (fun hin => hdec ⟨hin, hout⟩)] at h
        cases h
      · rw [bigintPow10_ne_ok hout] at h
        cases h
  · rw [if_pos (Int.not_lt.mp hp)]
    exact ⟨nofun, fun h => absurd h.1 hp⟩

/-! ## Conversions -/

theorem denominator_pos : 0 < onrePriceDenominator := by decide

section

variable {x x' p p' dIn dOut : ℤ}

theorem redeemed_mono (hp : 0 ≤ p) (h : x ≤ x') : redeemed x p dIn dOut ≤ redeemed x' p dIn dOut :=
  scale_mono (mul_nonneg hp (unitOf_pos dOut).le) (mul_pos (unitOf_pos dIn) denominator_pos) h

theorem redeemed_mono_price (hx : 0 ≤ x) (h : p ≤ p') :
    redeemed x p dIn dOut ≤ redeemed x p' dIn dOut :=
  scale_mono_rate hx (mul_pos (unitOf_pos dIn) denominator_pos)
    (mul_le_mul_of_nonneg_right h (unitOf_pos dOut).le)

theorem deposited_mono (hp : 0 < p) (h : x ≤ x') :
    deposited x p dIn dOut ≤ deposited x' p dIn dOut :=
  scale_mono (mul_pos (unitOf_pos dOut) denominator_pos).le (mul_pos hp (unitOf_pos dIn)) h

theorem deposited_anti_price (hx : 0 ≤ x) (hp : 0 < p) (h : p ≤ p') :
    deposited x p' dIn dOut ≤ deposited x p dIn dOut :=
  scale_anti hx (mul_pos (unitOf_pos dOut) denominator_pos).le (mul_pos hp (unitOf_pos dIn))
    (mul_le_mul_of_nonneg_right h (unitOf_pos dIn).le)

/-- What is bought back with the yield of a deposit. -/
theorem redeemed_deposited_le (hx : 0 ≤ x) (hp : 0 < p) :
    redeemed (deposited x p dIn dOut) p dOut dIn ≤ x :=
  scale_scale_le hx (mul_pos (unitOf_pos dOut) denominator_pos) (mul_pos hp (unitOf_pos dIn))

theorem deposited_redeemed_le (hx : 0 ≤ x) (hp : 0 < p) :
    deposited (redeemed x p dIn dOut) p dOut dIn ≤ x :=
  scale_scale_le hx (mul_pos hp (unitOf_pos dOut)) (mul_pos (unitOf_pos dIn) denominator_pos)

end

/-! ## Step prices -/

/-- Every field is a `u64`. -/
structure OnreOfferVector.InRange (v : OnreOfferVector) : Prop where
  startTime : 0 ≤ v.startTime ∧ v.startTime ≤ 2 ^ 64 - 1
  baseTime : 0 ≤ v.baseTime ∧ v.baseTime ≤ 2 ^ 64 - 1
  basePrice : 0 ≤ v.basePrice ∧ v.basePrice ≤ 2 ^ 64 - 1
  apr : 0 ≤ v.apr ∧ v.apr ≤ 2 ^ 64 - 1
  priceFixDuration : 0 ≤ v.priceFixDuration ∧ v.priceFixDuration ≤ 2 ^ 64 - 1

/-- The price at the end of step `k`, before it is checked. -/
def stepPrice (v : OnreOfferVector) (k : ℤ) : ℤ :=
  scale v.basePrice (onreAprScale * onreSecondsInYear + v.apr * ((k + 1) * v.priceFixDuration))
    (onreAprScale * onreSecondsInYear)

section

variable {v : OnreOfferVector} {now k k' : ℤ}

theorem calculateStepPrice_eq (hbase : v.baseTime ≤ now) (hduration : v.priceFixDuration ≠ 0) :
    calculateStepPrice v now =
      asU64 (stepPrice v ((now - v.baseTime).tdiv v.priceFixDuration))
        "calculate_step_price result" := by
  rw [calculateStepPrice, if_neg (Int.not_lt.mpr hbase), if_neg hduration]
  rfl

theorem calculateStepPrice_eq_ok {p : ℤ} :
    calculateStepPrice v now = .ok p ↔
      v.baseTime ≤ now ∧ v.priceFixDuration ≠ 0 ∧ (0 ≤ p ∧ p ≤ 2 ^ 64 - 1) ∧
        p = stepPrice v ((now - v.baseTime).tdiv v.priceFixDuration) := by
  by_cases hbase : v.baseTime ≤ now
  · by_cases hduration : v.priceFixDuration = 0
    · rw [calculateStepPrice, if_neg (Int.not_lt.mpr hbase), if_pos hduration]
      exact ⟨nofun, fun h => absurd hduration h.2.1⟩
    · rw [calculateStepPrice_eq hbase hduration, asU64_eq_ok]
      constructor
      · rintro ⟨hrange, rfl⟩
        exact ⟨hbase, hduration, hrange, rfl⟩
      · rintro ⟨-, -, hrange, rfl⟩
        exact ⟨hrange, rfl⟩
  · rw [calculateStepPrice, if_pos (Int.not_le.mp hbase)]
    exact ⟨nofun, fun h => absurd h.1 hbase⟩

theorem stepPrice_mono (hv : v.InRange) (h : k ≤ k') : stepPrice v k ≤ stepPrice v k' := by
  refine scale_mono_rate hv.basePrice.1 (by decide) ?_
  have hend : (k + 1) * v.priceFixDuration ≤ (k' + 1) * v.priceFixDuration :=
    mul_le_mul_of_nonneg_right (by omega) hv.priceFixDuration.1
  exact Int.add_le_add_left (mul_le_mul_of_nonneg_left hend hv.apr.1) _

theorem calculateStepPrice_mono (hv : v.InRange) {t t' p p' : ℤ} (hle : t ≤ t')
    (h : calculateStepPrice v t = .ok p) (h' : calculateStepPrice v t' = .ok p') : p ≤ p' := by
  obtain ⟨-, hduration, -, rfl⟩ := calculateStepPrice_eq_ok.mp h
  obtain ⟨-, -, -, rfl⟩ := calculateStepPrice_eq_ok.mp h'
  have hpos : 0 < v.priceFixDuration := lt_of_le_of_ne hv.priceFixDuration.1 hduration.symm
  exact stepPrice_mono hv (Int.tdiv_le_tdiv hpos (by omega))

/-- The number of completed steps. -/
theorem steps_eq {t base duration k : ℤ} (hk : 0 ≤ k) (hd : 0 ≤ duration)
    (h : base + k * duration ≤ t) (h' : t < base + (k + 1) * duration) :
    (t - base).tdiv duration = k := by
  have hkd := mul_nonneg hk hd
  rw [Int.tdiv_eq_ediv_of_nonneg (by omega)]
  have hstep : (k + 1) * duration = k * duration + duration := by ring
  refine le_antisymm (Int.lt_add_one_iff.mp ?_) ?_
  · exact Int.ediv_lt_of_lt_mul (by omega) (by omega)
  · exact (Int.le_ediv_iff_mul_le (by omega)).mpr (by omega)

theorem calculateStepPrice_const (hv : v.InRange) {t t' : ℤ} (hk : 0 ≤ k)
    (ht : v.baseTime + k * v.priceFixDuration ≤ t ∧
      t < v.baseTime + (k + 1) * v.priceFixDuration)
    (ht' : v.baseTime + k * v.priceFixDuration ≤ t' ∧
      t' < v.baseTime + (k + 1) * v.priceFixDuration) :
    calculateStepPrice v t = calculateStepPrice v t' := by
  have hd := hv.priceFixDuration.1
  have hkd := mul_nonneg hk hd
  have hduration : v.priceFixDuration ≠ 0 := by
    intro hzero
    rw [hzero] at ht
    omega
  rw [calculateStepPrice_eq (by omega) hduration, calculateStepPrice_eq (by omega) hduration,
    steps_eq hk hd ht.1 ht.2, steps_eq hk hd ht'.1 ht'.2]

end

/-! ## Rounding -/

/-- Truncation pays out nothing for an amount below zero, which is more than that amount; and with a
negative rate the price falls. -/
theorem nav_rounding_negative :
    depositExpectedOut (-1) 2 9 0 = .ok 0 ∧ redemptionExpectedOut 0 2 0 9 = .ok 0 ∧
      ¬ (0 : ℤ) ≤ -1 ∧
      (let v : OnreOfferVector := ⟨1, 0, 31536000000000, -1, 1⟩
       calculateStepPrice v 0 = .ok 31535999999999 ∧
        calculateStepPrice v 1 = .ok 31535999999998) := by
  decide

/-- Neither way there and back gains anything on an amount, more of one token never buys less of the
other, a higher price buys less ONyc and more of the base token, and the price of a vector rises
from step to step only. -/
theorem nav_rounding :
    (∀ x p db da a y, 0 ≤ x → depositExpectedOut x p db da = .ok a →
      redemptionExpectedOut a p da db = .ok y → y ≤ x) ∧
    (∀ x p db da a y, 0 ≤ x → redemptionExpectedOut x p da db = .ok a →
      depositExpectedOut a p db da = .ok y → y ≤ x) ∧
    (∀ x x' p db da y y', x ≤ x' → depositExpectedOut x p db da = .ok y →
      depositExpectedOut x' p db da = .ok y' → y ≤ y') ∧
    (∀ x x' p db da y y', x ≤ x' → 0 < p → redemptionExpectedOut x p da db = .ok y →
      redemptionExpectedOut x' p da db = .ok y' → y ≤ y') ∧
    (∀ x p p' db da y y', p ≤ p' → depositExpectedOut x p db da = .ok y →
      depositExpectedOut x p' db da = .ok y' → y' ≤ y) ∧
    (∀ x p p' db da y y', p ≤ p' → 0 < p → redemptionExpectedOut x p da db = .ok y →
      redemptionExpectedOut x p' da db = .ok y' → y ≤ y') ∧
    (∀ (v : OnreOfferVector) t t' p p', v.InRange → t ≤ t' → calculateStepPrice v t = .ok p →
      calculateStepPrice v t' = .ok p' → p ≤ p') ∧
    ∀ (v : OnreOfferVector) (k : ℕ) t t', v.InRange →
      v.baseTime + k * v.priceFixDuration ≤ t → t < v.baseTime + (k + 1) * v.priceFixDuration →
      v.baseTime + k * v.priceFixDuration ≤ t' → t' < v.baseTime + (k + 1) * v.priceFixDuration →
      calculateStepPrice v t = calculateStepPrice v t' := by
  refine ⟨?_, ?_, ?_, ?_, ?_, ?_, ?_, ?_⟩
  · intro x p db da a y hx hdeposit hredeem
    obtain ⟨hp, -, -, rfl⟩ := depositExpectedOut_eq_ok.mp hdeposit
    obtain ⟨-, -, rfl⟩ := redemptionExpectedOut_eq_ok.mp hredeem
    exact redeemed_deposited_le hx hp
  · intro x p db da a y hx hredeem hdeposit
    obtain ⟨-, -, rfl⟩ := redemptionExpectedOut_eq_ok.mp hredeem
    obtain ⟨hp, -, -, rfl⟩ := depositExpectedOut_eq_ok.mp hdeposit
    exact deposited_redeemed_le hx hp
  · intro x x' p db da y y' hle h h'
    obtain ⟨hp, -, -, rfl⟩ := depositExpectedOut_eq_ok.mp h
    obtain ⟨-, -, -, rfl⟩ := depositExpectedOut_eq_ok.mp h'
    exact deposited_mono hp hle
  · intro x x' p db da y y' hle hp h h'
    obtain ⟨-, -, rfl⟩ := redemptionExpectedOut_eq_ok.mp h
    obtain ⟨-, -, rfl⟩ := redemptionExpectedOut_eq_ok.mp h'
    exact redeemed_mono hp.le hle
  · intro x p p' db da y y' hle h h'
    obtain ⟨hp, -, hrange, hy⟩ := depositExpectedOut_eq_ok.mp h
    obtain ⟨hp', -, -, hy'⟩ := depositExpectedOut_eq_ok.mp h'
    rcases le_total 0 x with hx | hx
    · exact hy ▸ hy' ▸ deposited_anti_price hx hp hle
    · -- nothing is paid out for an amount below zero
      have hzero : deposited x p' db da ≤ deposited 0 p' db da := deposited_mono hp' hx
      rw [← hy', deposited, scale, zero_mul, Int.zero_tdiv] at hzero
      omega
  · intro x p p' db da y y' hle hp h h'
    obtain ⟨-, -, hy⟩ := redemptionExpectedOut_eq_ok.mp h
    obtain ⟨-, hrange', hy'⟩ := redemptionExpectedOut_eq_ok.mp h'
    rcases le_total 0 x with hx | hx
    · exact hy ▸ hy' ▸ redeemed_mono_price hx hle
    · have hzero : redeemed x p da db ≤ redeemed 0 p da db := redeemed_mono hp.le hx
      rw [← hy, redeemed, scale, zero_mul, Int.zero_tdiv] at hzero
      omega
  · intro v t t' p p' hv hle h h'
    exact calculateStepPrice_mono hv hle h h'
  · intro v k t t' hv hlow hhigh hlow' hhigh'
    exact calculateStepPrice_const hv (Int.natCast_nonneg k) ⟨hlow, hhigh⟩ ⟨hlow', hhigh'⟩

/-- A hundred units of USDC at a price of 1.1, and a vector with steps of a minute. -/
theorem nav_rounding_hundred :
    (99999999 : ℤ) ≤ 100000000 ∧
      let v : OnreOfferVector := ⟨1, 40, 1000000000, 100000, 60⟩
      calculateStepPrice v 100 = calculateStepPrice v 159 :=
  ⟨nav_rounding.1 100000000 1100000000 6 9 90909090909 99999999 (by decide) (by decide) (by decide),
    nav_rounding.2.2.2.2.2.2.2 ⟨1, 40, 1000000000, 100000, 60⟩ 1 100 159
      (by constructor <;> decide) (by decide) (by decide) (by decide) (by decide)⟩

end FogoYield.Sdk
