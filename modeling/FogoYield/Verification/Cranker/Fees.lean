import Mathlib.Tactic.Ring
import FogoYield.Model.Cranker.Swap
import FogoYield.Model.Sdk.Pricing
import FogoYield.Verification.Relayer.Holdings

/-! # Fees on both sides

The program, the SDK and the cranker compute the same fee. -/

namespace FogoYield.Cranker

open FogoYield.Library FogoYield.Solana FogoYield.Relayer

/-! ## The fee as a number -/

/-- A fee of at most a tenth is at most a tenth of the amount. -/
theorem fee_le_tenth (gross : ℕ) {bps : ℕ} (h : bps ≤ 1000) : gross * bps / 10000 ≤ gross / 10 := by
  have hle : gross * bps ≤ gross * 1000 := Nat.mul_le_mul_left gross h
  omega

theorem fee_lt (gross : ℕ) {bps : ℕ} (h : bps ≤ 1000) (hpos : 0 < gross) :
    gross * bps / 10000 < gross := by
  have hle := fee_le_tenth gross h
  omega

/-- A larger amount never leaves less. -/
theorem net_mono {gross gross' bps : ℕ} (h : bps ≤ 1000) (hle : gross ≤ gross') :
    gross - gross * bps / 10000 ≤ gross' - gross' * bps / 10000 := by
  obtain ⟨d, rfl⟩ := Nat.exists_eq_add_of_le hle
  have hd : d * bps ≤ d * 1000 := Nat.mul_le_mul_left d h
  have hsplit : (gross + d) * bps = gross * bps + d * bps := Nat.add_mul gross d bps
  have hfee := fee_le_tenth gross h
  rw [hsplit]
  omega

/-! ## The program -/

theorem ofNat_fee (gross : UInt64) {bps : ℕ} (h : bps ≤ 1000) :
    (UInt64.ofNat (gross.toNat * bps / 10000)).toNat = gross.toNat * bps / 10000 := by
  have hle := fee_le_tenth gross.toNat h
  have hlt := gross.toNat_lt
  rw [UInt64.toNat_ofNat', Nat.mod_eq_of_lt (by omega)]

/-- For a valid fee `apply_fee_bps` gets to its last check. -/
theorem applyFeeBps_eq (gross : UInt64) {bps : UInt16} (h : bps ≤ maxFeeBps) :
    applyFeeBps gross bps =
      let fee := UInt64.ofNat (gross.toNat * bps.toNat / 10000)
      if 0 < gross - fee then .ok (gross - fee, fee) else .error (.custom .zeroAmountFlow) := by
  have hbps : bps.toNat ≤ 1000 := UInt16.le_iff_toNat_le.mp h
  have hgross := gross.toNat_lt
  have hle := fee_le_tenth gross.toNat hbps
  have hproduct : gross.toNat * bps.toNat ≤ gross.toNat * 1000 := Nat.mul_le_mul_left _ hbps
  have hfee := ofNat_fee gross hbps
  have hsub : UInt64.ofNat (gross.toNat * bps.toNat / 10000) ≤ gross := by
    rw [UInt64.le_iff_toNat_le, hfee]
    omega
  have h128 : gross.toNat * bps.toNat < 2 ^ 128 := by omega
  have h64 : gross.toNat * bps.toNat / 10000 < 2 ^ 64 := by omega
  simp only [applyFeeBps, require, if_pos h128, if_pos h64, checkedSub, if_pos hsub,
    Solana.liftOption, bind, Except.bind, pure, Except.pure]
  by_cases hnet : 0 < gross - UInt64.ofNat (gross.toNat * bps.toNat / 10000)
  · simp only [if_pos hnet]
  · simp only [if_neg hnet]

theorem applyFeeBps_zero {bps : UInt16} (h : bps ≤ maxFeeBps) :
    applyFeeBps 0 bps = .error (.custom .zeroAmountFlow) := by
  rw [applyFeeBps_eq 0 h]
  simp

theorem applyFeeBps_ok {gross : UInt64} {bps : UInt16} (h : bps ≤ maxFeeBps) (hpos : 0 < gross) :
    ∃ net fee, applyFeeBps gross bps = .ok (net, fee) := by
  have hbps : bps.toNat ≤ 1000 := UInt16.le_iff_toNat_le.mp h
  have hgross : 0 < gross.toNat := UInt64.lt_iff_toNat_lt.mp hpos
  have hlt := fee_lt gross.toNat hbps hgross
  have hfee := ofNat_fee gross hbps
  have hle : UInt64.ofNat (gross.toNat * bps.toNat / 10000) ≤ gross := by
    rw [UInt64.le_iff_toNat_le, hfee]
    omega
  have hnet : 0 < gross - UInt64.ofNat (gross.toNat * bps.toNat / 10000) := by
    rw [UInt64.lt_iff_toNat_lt, UInt64.toNat_sub_of_le _ _ hle, hfee, UInt64.toNat_zero]
    omega
  rw [applyFeeBps_eq gross h]
  exact ⟨_, _, if_pos hnet⟩

/-! ## The SDK -/

/-- Quotients of amounts are the program's. -/
theorem tdiv_fee (gross bps : ℕ) :
    ((gross : ℤ) * bps).tdiv 10000 = ((gross * bps / 10000 : ℕ) : ℤ) := by
  rw [← Int.natCast_mul]
  exact (Int.ofNat_tdiv _ _).symm

theorem sdk_applyFeeBps_eq (gross : ℕ) {bps : ℕ} (h : bps ≤ 1000) :
    Sdk.applyFeeBps gross bps = if gross = 0 then .error .grossNotPositive
      else .ok ⟨((gross - gross * bps / 10000 : ℕ) : ℤ), ((gross * bps / 10000 : ℕ) : ℤ)⟩ := by
  have hrange : ¬ ((bps : ℤ) < 0 ∨ Sdk.maxFeeBps < (bps : ℤ)) := by
    simp only [Sdk.maxFeeBps]
    omega
  simp only [Sdk.applyFeeBps, if_neg hrange, Sdk.feeDenominatorBps, tdiv_fee]
  by_cases hzero : gross = 0
  · simp [hzero]
  · have hlt := fee_lt gross h (Nat.pos_of_ne_zero hzero)
    have hgross : ¬ ((gross : ℤ) ≤ 0) := by omega
    have hnet : ¬ ((gross : ℤ) - ((gross * bps / 10000 : ℕ) : ℤ) ≤ 0) := by omega
    rw [if_neg hgross, if_neg hnet, if_neg hzero, Int.ofNat_sub hlt.le]

/-! ## The cranker -/

theorem netOnyc_eq (c : PairConfig) (gross : ℕ) (h : c.withdrawFeeBps.toNat ≤ 1000) :
    netOnyc c gross = ((gross - gross * c.withdrawFeeBps.toNat / 10000 : ℕ) : ℤ) := by
  have hle := fee_le_tenth gross h
  rw [netOnyc, tdiv_fee, Int.ofNat_sub (by omega)]

/-! ## The measured input -/

section

variable {α β : Type}

theorem bind_ne_error {e : ProgramError RelayerError} {x : RelayerResult α}
    {f : α → RelayerResult β} (hx : x ≠ .error e) (hf : ∀ a, x = .ok a → f a ≠ .error e) :
    x >>= f ≠ .error e := by
  cases x with
  | error e' =>
      intro h
      cases h
      exact hx rfl
  | ok a => exact hf a rfl

theorem require_ne_error {c : Prop} [Decidable c] {e e' : RelayerError} (h : c ∨ e' ≠ e) :
    require c e' ≠ .error (.custom e) := by
  unfold require
  split
  · simp
  · rename_i hc
    simpa using h.resolve_left hc

theorem liftOption_ne_error {o : Option α} {e e' : RelayerError} (h : e' ≠ e) :
    Solana.liftOption o e' ≠ .error (.custom e) := by
  cases o with
  | none => simpa [Solana.liftOption] using h
  | some a => simp [Solana.liftOption]

theorem loadToken_ne_error {w : RelayerWorld} {k : Pubkey} {e : RelayerError} :
    (loadToken w k : RelayerResult TokenAccount) ≠ .error (.custom e) := by
  unfold loadToken
  split <;> simp

theorem invokeSigned_ne_error {rt : RelayerRuntime} {pid : Pubkey} {ctx : Context}
    {seeds : List Bytes} {ix : Instruction} {w : RelayerWorld} {e : RelayerError} :
    (invokeSigned rt pid ctx seeds ix w : RelayerResult RelayerWorld) ≠ .error (.custom e) := by
  unfold invokeSigned
  split
  · split <;> simp
  · simp

end

section

variable {rt : RelayerRuntime} {ctx : Context} {accs : SwapAccounts} {loaded : FlowLoaded}
variable {data : Bytes} {w : RelayerWorld}

theorem skimFee_ne_error {fee : UInt64} {e : RelayerError} :
    skimFee rt ctx accs loaded fee w ≠ .error (.custom e) := by
  unfold skimFee relayerSignedTransferChecked
  split
  · simp
  · exact invokeSigned_ne_error

theorem applyFeeBps_ne_mismatch (gross : UInt64) (bps : UInt16) :
    applyFeeBps gross bps ≠ .error (.custom .inputConsumedMismatch) := by
  unfold applyFeeBps
  refine bind_ne_error (require_ne_error (.inr (by decide))) (fun _ _ => ?_)
  refine bind_ne_error (require_ne_error (.inr (by decide))) (fun _ _ => ?_)
  refine bind_ne_error (liftOption_ne_error (by decide)) (fun _ _ => ?_)
  exact bind_ne_error (require_ne_error (.inr (by decide))) (fun _ _ => by simp [pure, Except.pure])

theorem skimInput_ne_mismatch :
    skimInput rt ctx accs loaded w ≠ .error (.custom .inputConsumedMismatch) := by
  unfold skimInput
  split
  · simp [pure, Except.pure]
  · refine bind_ne_error (applyFeeBps_ne_mismatch _ _) (fun _ _ => ?_)
    refine bind_ne_error (require_ne_error (.inr (by decide))) (fun _ _ => ?_)
    exact bind_ne_error skimFee_ne_error (fun _ _ => by simp [pure, Except.pure])

theorem skimOutput_ne_mismatch {out feeBefore : UInt64} :
    skimOutput rt ctx accs loaded out feeBefore w ≠ .error (.custom .inputConsumedMismatch) := by
  unfold skimOutput
  split
  · refine bind_ne_error (applyFeeBps_ne_mismatch _ _) (fun _ _ => ?_)
    exact bind_ne_error skimFee_ne_error (fun _ _ => by simp [pure, Except.pure])
  · simp [pure, Except.pure]

theorem prepareDelegates_ne_error {swapIn : UInt64} {e : RelayerError} :
    prepareDelegates rt ctx accs loaded swapIn w ≠ .error (.custom e) := by
  unfold prepareDelegates
  refine bind_ne_error invokeSigned_ne_error (fun _ _ => ?_)
  refine bind_ne_error invokeSigned_ne_error (fun _ _ => ?_)
  split
  · exact invokeSigned_ne_error
  · simp [pure, Except.pure]

theorem callRouter_ne_mismatch :
    callRouter rt ctx accs loaded data w ≠ .error (.custom .inputConsumedMismatch) := by
  unfold callRouter
  refine bind_ne_error invokeSigned_ne_error (fun _ _ => ?_)
  refine bind_ne_error (require_ne_error (.inr (by decide))) (fun _ _ => ?_)
  refine bind_ne_error (require_ne_error (.inr (by decide))) (fun _ _ => ?_)
  exact bind_ne_error (require_ne_error (.inr (by decide))) (fun _ _ => by simp [pure, Except.pure])

theorem assertAtaUntampered_ne_mismatch {t : TokenAccount} {k : Pubkey} :
    assertAtaUntampered t k ≠ .error (.custom .inputConsumedMismatch) := by
  unfold assertAtaUntampered
  refine bind_ne_error (require_ne_error (.inr (by decide))) (fun _ _ => ?_)
  refine bind_ne_error (require_ne_error (.inr (by decide))) (fun _ _ => ?_)
  refine bind_ne_error (require_ne_error (.inr (by decide))) (fun _ _ => ?_)
  exact require_ne_error (.inr (by decide))

/-- What the input account is measured to lose is all that can mismatch. -/
theorem measuredSwap_ne_mismatch {swapIn : UInt64} (hd : loaded.flow.direction = .withdraw)
    (h : ∀ v w', prepareDelegates rt ctx accs loaded swapIn w = .ok v →
      callRouter rt ctx accs loaded data v = .ok w' →
      balance w'.accounts accs.assetAta + swapIn.toNat = balance w.accounts accs.assetAta) :
    measuredSwap rt ctx accs loaded swapIn data w ≠ .error (.custom .inputConsumedMismatch) := by
  unfold measuredSwap
  refine bind_ne_error loadToken_ne_error (fun base _ => ?_)
  refine bind_ne_error loadToken_ne_error (fun asset hasset => ?_)
  refine bind_ne_error (require_ne_error (.inr (by decide))) (fun _ _ => ?_)
  refine bind_ne_error prepareDelegates_ne_error (fun v hv => ?_)
  refine bind_ne_error callRouter_ne_mismatch (fun w' hw' => ?_)
  refine bind_ne_error loadToken_ne_error (fun base' _ => ?_)
  refine bind_ne_error loadToken_ne_error (fun asset' hasset' => ?_)
  refine bind_ne_error (liftOption_ne_error (by decide)) (fun consumed hconsumed => ?_)
  refine bind_ne_error (liftOption_ne_error (by decide)) (fun _ _ => ?_)
  refine bind_ne_error (require_ne_error (.inl ?_)) (fun _ _ => ?_)
  · have hbalance := h v w' hv hw'
    rw [balance_of_tokenAt (loadToken_eq_ok.mp hasset),
      balance_of_tokenAt (loadToken_eq_ok.mp hasset')] at hbalance
    simp only [hd, liftOption_eq_ok, checkedSub_eq_some] at hconsumed
    exact UInt64.toNat_inj.mp (by omega)
  · refine bind_ne_error (require_ne_error (.inr (by decide))) (fun _ _ => ?_)
    refine bind_ne_error assertAtaUntampered_ne_mismatch (fun _ _ => ?_)
    refine bind_ne_error assertAtaUntampered_ne_mismatch (fun _ _ => ?_)
    simp [pure, Except.pure]

/-- The route of a swap runs from `w₁`, where the input fee has been paid, to `w₂`. -/
def Routed (rt : RelayerRuntime) (ctx : Context) (accs : SwapAccounts) (loaded : FlowLoaded)
    (data : Bytes) (w w₁ w₂ : RelayerWorld) : Prop :=
  ∃ swapIn feeBefore v, skimInput rt ctx accs loaded w = .ok (swapIn, feeBefore, w₁) ∧
    prepareDelegates rt ctx accs loaded swapIn w₁ = .ok v ∧
    callRouter rt ctx accs loaded data v = .ok w₂

/-- A route that takes what the cranker quoted it for takes what the program expects. -/
theorem swap_ne_mismatch (hload : accs.load rt w = .ok loaded)
    (hd : loaded.flow.direction = .withdraw) (hbps : loaded.config.withdrawFeeBps ≤ maxFeeBps)
    (h : ∀ w₁ w₂, Routed rt ctx accs loaded data w w₁ w₂ →
      (balance w₁.accounts accs.assetAta : ℤ) - balance w₂.accounts accs.assetAta =
        netOnyc loaded.config loaded.flow.amount.toNat) :
    swap rt ctx accs data w ≠ .error (.custom .inputConsumedMismatch) := by
  unfold swap
  rw [hload]
  refine bind_ne_error (by simp) (fun loaded' hloaded => ?_)
  obtain rfl := Except.ok.inj hloaded
  refine bind_ne_error (require_ne_error (.inr (by decide))) (fun _ _ => ?_)
  refine bind_ne_error (require_ne_error (.inr (by decide))) (fun _ _ => ?_)
  refine bind_ne_error (require_ne_error (.inr (by decide))) (fun _ _ => ?_)
  refine bind_ne_error (require_ne_error (.inr (by decide))) (fun _ _ => ?_)
  refine bind_ne_error skimInput_ne_mismatch (fun r hin => ?_)
  obtain ⟨swapIn, feeBefore, w₁⟩ := r
  refine bind_ne_error (measuredSwap_ne_mismatch hd ?_) (fun _ _ => ?_)
  · intro v w₂ hv hw₂
    have hconsumed := h w₁ w₂ ⟨swapIn, feeBefore, v, hin, hv, hw₂⟩
    have hspec := skimInput_spec hin
    have hfee := hspec.fee
    have hsplit := hspec.split
    simp only [hd] at hfee
    rw [netOnyc_eq _ _ (UInt16.le_iff_toNat_le.mp hbps), ← hfee.1] at hconsumed
    omega
  · refine bind_ne_error skimOutput_ne_mismatch (fun _ _ => ?_)
    simp [pure, Except.pure]

theorem swapAccounts_load_spec (h : accs.load rt w = .ok loaded) :
    FlowLoad rt accs.toFlowAccounts w loaded := by
  simp only [SwapAccounts.load, bind_eq_ok, flowAccounts_load_eq_ok, constrain_eq_ok,
    checkTokenMint_eq_ok, pure_eq_ok, exists_const] at h
  obtain ⟨_, hload, -, _, -, rfl⟩ := h
  exact hload

end

/-! ## Agreement -/

/-- Under a fee of `bps` the program and the SDK accept the positive amounts and split them in the
same way; the larger amount leaves no less. -/
structure FeesAgree (bps : UInt16) : Prop where
  zero : applyFeeBps 0 bps = .error (.custom .zeroAmountFlow) ∧
    Sdk.applyFeeBps 0 bps.toNat = .error .grossNotPositive
  positive : ∀ gross : UInt64, 0 < gross → ∃ net fee : UInt64,
    applyFeeBps gross bps = .ok (net, fee) ∧
    Sdk.applyFeeBps gross.toNat bps.toNat = .ok ⟨net.toNat, fee.toNat⟩ ∧
    net.toNat + fee.toNat = gross.toNat ∧ fee.toNat ≤ gross.toNat / 10 ∧ 0 < net
  no_overflow : ∀ gross, applyFeeBps gross bps ≠ .error (.custom .feeOverflow)
  mono : ∀ gross gross' net fee net' fee', gross ≤ gross' →
    applyFeeBps gross bps = .ok (net, fee) → applyFeeBps gross' bps = .ok (net', fee') → net ≤ net'
  sdk_mono : ∀ gross gross' split split', gross ≤ gross' →
    Sdk.applyFeeBps gross bps.toNat = .ok split → Sdk.applyFeeBps gross' bps.toNat = .ok split' →
    split.net ≤ split'.net

theorem sdk_applyFeeBps_ok {gross : ℤ} {bps : ℕ} {split : Sdk.FeeBreakdown} (h : bps ≤ 1000)
    (hok : Sdk.applyFeeBps gross bps = .ok split) :
    ∃ n : ℕ, gross = n ∧ split.net = ((n - n * bps / 10000 : ℕ) : ℤ) := by
  have hpos : 0 < gross := by
    by_contra hneg
    unfold Sdk.applyFeeBps at hok
    split at hok
    · cases hok
    · rw [if_pos (by omega)] at hok
      cases hok
  obtain ⟨n, rfl⟩ := Int.eq_ofNat_of_zero_le hpos.le
  rw [sdk_applyFeeBps_eq n h] at hok
  split at hok
  · cases hok
  · obtain rfl := Except.ok.inj hok
    exact ⟨n, rfl, rfl⟩

theorem feesAgree {bps : UInt16} (h : bps ≤ maxFeeBps) : FeesAgree bps := by
  have hbps : bps.toNat ≤ 1000 := UInt16.le_iff_toNat_le.mp h
  refine ⟨⟨applyFeeBps_zero h, sdk_applyFeeBps_eq 0 hbps⟩, ?_, ?_, ?_, ?_⟩
  · intro gross hpos
    obtain ⟨net, fee, hok⟩ := applyFeeBps_ok h hpos
    obtain ⟨hfee, hsum, hnet⟩ := applyFeeBps_spec hok
    have hzero : gross.toNat ≠ 0 := by
      have := UInt64.lt_iff_toNat_lt.mp hpos
      rw [UInt64.toNat_zero] at this
      omega
    refine ⟨net, fee, hok, ?_, hsum, ?_, hnet⟩
    · rw [sdk_applyFeeBps_eq _ hbps, if_neg hzero, ← hfee, ← hsum, Nat.add_sub_cancel]
    · rw [hfee]
      exact fee_le_tenth _ hbps
  · intro gross
    rw [applyFeeBps_eq gross h]
    dsimp only
    split <;> simp
  · intro gross gross' net fee net' fee' hle hok hok'
    obtain ⟨hfee, hsum, -⟩ := applyFeeBps_spec hok
    obtain ⟨hfee', hsum', -⟩ := applyFeeBps_spec hok'
    have hmono := net_mono hbps (UInt64.le_iff_toNat_le.mp hle)
    rw [UInt64.le_iff_toNat_le]
    omega
  · intro gross gross' split split' hle hok hok'
    obtain ⟨n, rfl, hnet⟩ := sdk_applyFeeBps_ok hbps hok
    obtain ⟨n', rfl, hnet'⟩ := sdk_applyFeeBps_ok hbps hok'
    rw [hnet, hnet']
    exact Int.ofNat_le.mpr (net_mono hbps (Int.ofNat_le.mp hle))

theorem planWithdrawSwap_amount {cfg : PairConfig} {flow : Flow} {authority : Pubkey}
    {fetchJupiterRoute : RouteRequest → JupiterRoute} {request : RouteRequest}
    {route : JupiterRoute}
    (h : planWithdrawSwap cfg flow authority fetchJupiterRoute = .submit request route) :
    request.amount = netOnyc cfg flow.amount.toNat := by
  unfold planWithdrawSwap at h
  dsimp only at h
  split_ifs at h
  cases h
  rfl

/-- The offer of the reference chain, quoted for what is left of the withdraw. -/
def withdrawRoute : JupiterRoute := ⟨onreProgram, withdrawSwapData, [], withdrawOffer.toNat⟩

def withdrawRequest : RouteRequest :=
  ⟨onycMint, usdcMint, withdrawSwapIn.toNat, withdrawFloor.toNat, relayerKey⟩

/-- The deposit of the reference chain is swapped at or above its floor. -/
theorem reference_deposit_measured :
    ∃ ts w, RelayerRun referenceEnv (genesis 1000000000) ts w ∧
      ts.map Transition.act = depositActions.take 4 ∧
      ∃ ctx accs data loaded swapIn w₁ out w₂, swapAction = .swap ctx accs data ∧
        accs.load referenceEnv.runtime w = .ok loaded ∧ loaded.flow.direction = .deposit ∧
        measuredSwap referenceEnv.runtime ctx accs loaded swapIn data w₁ = .ok (out, w₂) := by
  have hend : Ends (fun w => Ends (fun _ => True) (swapAction.apply referenceEnv.runtime w) ∧
      (flowAt w.accounts flowKey).map Flow.direction = some .deposit)
      (executed 1000000000 (depositActions.take 4)) := by decide +kernel
  obtain ⟨ts, w, hr, hacts, hlast, hdirection⟩ := run_of_executed (by decide +kernel) hend
  obtain ⟨w', happly, -⟩ := hlast.exists_ok
  simp only [swapAction, Action.apply, swap, bind_eq_ok, require_eq_ok, exists_const] at happly
  obtain ⟨loaded, hload, -, -, -, -, ⟨swapIn, feeBefore, w₁⟩, -, ⟨out, w₂⟩, hmeasured, -⟩ := happly
  have hflow := (swapAccounts_load_spec hload).flow_at
  change flowAt w.accounts flowKey = some loaded.flow at hflow
  have hdeposit : loaded.flow.direction = .deposit := by
    rw [hflow] at hdirection
    exact Option.some.inj hdirection
  exact ⟨ts, w, hr, hacts, _, _, _, loaded, swapIn, w₁, out, w₂, rfl, hload, hdeposit, hmeasured⟩

/-- The withdraw of the reference chain is routed, and the route takes just what was asked for. -/
theorem reference_withdraw_routed :
    ∃ ts w, RelayerRun referenceEnv (genesis 1000000000) ts w ∧
      ts.map Transition.act = withdrawActions.take 3 ∧
      ∃ loaded swapIn fee w₁,
        withdrawSwapAccounts.load referenceEnv.runtime w = .ok loaded ∧
        loaded.flow.direction = .withdraw ∧
        skimInput referenceEnv.runtime withdrawSwapContext withdrawSwapAccounts loaded w =
          .ok (swapIn, fee, w₁) ∧
        planWithdrawSwap loaded.config loaded.flow relayerKey (fun _ => withdrawRoute) =
          .submit withdrawRequest withdrawRoute ∧
        ∀ u₁ u₂, Routed referenceEnv.runtime withdrawSwapContext withdrawSwapAccounts loaded
            withdrawSwapData w u₁ u₂ →
          (balance u₁.accounts assetAta : ℤ) - balance u₂.accounts assetAta =
            netOnyc loaded.config loaded.flow.amount.toNat := by
  have hend : Ends (fun w => Ends (fun loaded => loaded.flow.direction = .withdraw ∧
        planWithdrawSwap loaded.config loaded.flow relayerKey (fun _ => withdrawRoute) =
          .submit withdrawRequest withdrawRoute ∧
        Ends (fun r => Ends (fun v => Ends (fun w₂ =>
            (balance r.2.2.accounts assetAta : ℤ) - balance w₂.accounts assetAta =
              netOnyc loaded.config loaded.flow.amount.toNat)
          (callRouter referenceEnv.runtime withdrawSwapContext withdrawSwapAccounts loaded
            withdrawSwapData v))
          (prepareDelegates referenceEnv.runtime withdrawSwapContext withdrawSwapAccounts loaded
            r.1 r.2.2))
          (skimInput referenceEnv.runtime withdrawSwapContext withdrawSwapAccounts loaded w))
        (withdrawSwapAccounts.load referenceEnv.runtime w))
      (executed 1000000000 (withdrawActions.take 3)) := by decide +kernel
  obtain ⟨ts, w, hr, hacts, hlast⟩ := run_of_executed (by decide +kernel) hend
  obtain ⟨loaded, hload, hwithdraw, hplan, hskim⟩ := hlast.exists_ok
  obtain ⟨⟨swapIn, fee, w₁⟩, hin, hprepare⟩ := hskim.exists_ok
  obtain ⟨v, hv, hrouter⟩ := hprepare.exists_ok
  obtain ⟨w₂, hw₂, htaken⟩ := hrouter.exists_ok
  refine ⟨ts, w, hr, hacts, loaded, swapIn, fee, w₁, hload, hwithdraw, hin, hplan, ?_⟩
  -- the parts of a swap are functions, so there is one route
  rintro u₁ u₂ ⟨swapIn', fee', v', hin', hv', hu₂⟩
  cases hin.symm.trans hin'
  cases hv.symm.trans hv'
  cases hw₂.symm.trans hu₂
  exact htaken

/-- Fees are the same everywhere. The program and the SDK agree on every valid fee; in every
reachable state the input of a withdraw is what the cranker asks a route for, a route that consumes
it never mismatches, and a deposit whose output cleared the floor can pay its fee. -/
theorem fee_arithmetic {env : Env} (hl : env.Lawful) {w₀ w : RelayerWorld}
    {ts : List RelayerTransition} (hg : Genesis env w₀) (hr : RelayerRun env w₀ ts w) :
    (∀ bps, bps ≤ maxFeeBps → FeesAgree bps) ∧
    (∀ ctx accs data loaded, accs.load env.runtime w = .ok loaded →
      loaded.flow.direction = .withdraw →
      (∀ swapIn feeBefore w₁,
        skimInput env.runtime ctx accs loaded w = .ok (swapIn, feeBefore, w₁) →
        netOnyc loaded.config loaded.flow.amount.toNat = swapIn.toNat) ∧
      (∀ authority fetchJupiterRoute request route,
        planWithdrawSwap loaded.config loaded.flow authority fetchJupiterRoute =
          .submit request route →
        request.amount = netOnyc loaded.config loaded.flow.amount.toNat) ∧
      ((∀ w₁ w₂, Routed env.runtime ctx accs loaded data w w₁ w₂ →
        (balance w₁.accounts accs.assetAta : ℤ) - balance w₂.accounts accs.assetAta =
          netOnyc loaded.config loaded.flow.amount.toNat) →
        swap env.runtime ctx accs data w ≠ .error (.custom .inputConsumedMismatch))) ∧
    ∀ ctx accs data loaded swapIn w₁ out w₂, accs.load env.runtime w = .ok loaded →
      loaded.flow.direction = .deposit →
      measuredSwap env.runtime ctx accs loaded swapIn data w₁ = .ok (out, w₂) →
      ∃ net fee, loaded.config.applyDepositFee out = .ok (net, fee) := by
  have hreached := run_reached hl hg hr
  have hfees : ∀ (accs : SwapAccounts) (loaded : FlowLoaded),
      accs.load env.runtime w = .ok loaded → ∀ leg, loaded.config.live leg ≤ maxFeeBps := by
    intro accs loaded hload
    have hvalid := (hreached.configs _ _ (swapAccounts_load_spec hload).config_at).valid
    exact (PairConfig.validate_eq_ok.mp hvalid).1
  refine ⟨fun bps => feesAgree, ?_, ?_⟩
  · intro ctx accs data loaded hload hd
    have hbps := hfees accs loaded hload .withdraw
    refine ⟨?_, fun _ _ _ _ hplan => planWithdrawSwap_amount hplan,
      swap_ne_mismatch hload hd hbps⟩
    intro swapIn feeBefore w₁ hin
    have hspec := skimInput_spec hin
    have hfee := hspec.fee
    have hsplit := hspec.split
    simp only [hd] at hfee
    rw [netOnyc_eq _ _ (UInt16.le_iff_toNat_le.mp hbps), ← hfee.1]
    omega
  · intro ctx accs data loaded swapIn w₁ out w₂ hload hd hmeasured
    obtain ⟨_, _, _, _, _, _, _, hm⟩ := measuredSwap_spec hmeasured
    obtain ⟨_, _, _, _, hbound⟩ := hreached.flows _ _ (swapAccounts_load_spec hload).flow_at
    exact applyFeeBps_ok (hfees accs loaded hload .deposit)
      (UInt64.lt_of_lt_of_le hbound.min_pos hm.floor)

/-- On the reference chain the output of the deposit's swap clears the floor, and its fee can be
paid; the withdraw is routed for what its fee leaves, and the route takes just that. -/
theorem fee_arithmetic_reference :
    (∃ ts w, RelayerRun referenceEnv (genesis 1000000000) ts w ∧
      ts.map Transition.act = depositActions.take 4 ∧
      ∃ ctx accs data loaded swapIn w₁ out w₂, swapAction = .swap ctx accs data ∧
        accs.load referenceEnv.runtime w = .ok loaded ∧ loaded.flow.direction = .deposit ∧
        measuredSwap referenceEnv.runtime ctx accs loaded swapIn data w₁ = .ok (out, w₂) ∧
        ∃ net fee, loaded.config.applyDepositFee out = .ok (net, fee)) ∧
    ∃ ts w, RelayerRun referenceEnv (genesis 1000000000) ts w ∧
      ts.map Transition.act = withdrawActions.take 3 ∧
      ∃ loaded swapIn fee w₁,
        withdrawSwapAccounts.load referenceEnv.runtime w = .ok loaded ∧
        loaded.flow.direction = .withdraw ∧
        skimInput referenceEnv.runtime withdrawSwapContext withdrawSwapAccounts loaded w =
          .ok (swapIn, fee, w₁) ∧
        planWithdrawSwap loaded.config loaded.flow relayerKey (fun _ => withdrawRoute) =
          .submit withdrawRequest withdrawRoute ∧
        withdrawRequest.amount = swapIn.toNat ∧
        swap referenceEnv.runtime withdrawSwapContext withdrawSwapAccounts withdrawSwapData w ≠
          .error (.custom .inputConsumedMismatch) := by
  constructor
  · obtain ⟨ts, w, hr, hacts, ctx, accs, data, loaded, swapIn, w₁, out, w₂, hact, hload, hdeposit,
      hmeasured⟩ := reference_deposit_measured
    obtain ⟨-, -, hfee⟩ := fee_arithmetic referenceEnv_lawful (genesis_ok _) hr
    exact ⟨ts, w, hr, hacts, ctx, accs, data, loaded, swapIn, w₁, out, w₂, hact, hload, hdeposit,
      hmeasured, hfee _ _ _ _ _ _ _ _ hload hdeposit hmeasured⟩
  · obtain ⟨ts, w, hr, hacts, loaded, swapIn, fee, w₁, hload, hwithdraw, hin, hplan, hrouted⟩ :=
      reference_withdraw_routed
    obtain ⟨-, hfees, -⟩ := fee_arithmetic referenceEnv_lawful (genesis_ok _) hr
    obtain ⟨hnet, hasked, hmatch⟩ := hfees _ _ withdrawSwapData loaded hload hwithdraw
    exact ⟨ts, w, hr, hacts, loaded, swapIn, fee, w₁, hload, hwithdraw, hin, hplan,
      (hasked _ _ _ _ hplan).trans (hnet _ _ _ hin), hmatch hrouted⟩

end FogoYield.Cranker
