import FogoYield.Verification.Relayer.Effects
import FogoYield.Verification.Relayer.Reference

/-! # The fee timelock

Every staged value goes back to a proposal for its leg that nothing has replaced since, made at
least `feeTimelockSlots` before the bundle is ripe. Promotion is the only way up. -/

namespace FogoYield.Relayer

open FogoYield.Library FogoYield.Solana

/-- The transition is a `configure` of the pair at `k`, at slot `s`, that proposes `v` for `leg`. -/
def ProposesFee (k : Pubkey) (leg : Leg) (v : UInt16) (s : UInt64) (tr : RelayerTransition) :
    Prop :=
  ∃ ctx accs args, tr.act = .configure ctx accs args ∧ accs.pairConfig = k ∧
    args.fee leg = some v ∧ tr.pre.clock.slot = s

/-- The transition neither replaces nor cancels what is staged for `leg` of the pair at `k`. -/
def LeavesStaged (k : Pubkey) (leg : Leg) (tr : RelayerTransition) : Prop :=
  ∀ ctx accs args, tr.act = .configure ctx accs args → accs.pairConfig = k → args.fee leg = none

/-- A staged value has a standing proposal that will have aged when the bundle is ripe. -/
def StagedProposed (ts : List RelayerTransition) (w : RelayerWorld) : Prop :=
  ∀ k c leg v, pairConfigAt w.accounts k = some c → c.staged leg = some v →
    ∃ s, Since (ProposesFee k leg v s) (LeavesStaged k leg) ts ∧
      ∀ p ∈ c.pendingFee, s.toNat + feeTimelockSlots.toNat ≤ p.readySlot.toNat

theorem leavesStaged_of_pairKey {k : Pubkey} {leg : Leg} {tr : RelayerTransition}
    (h : tr.act.pairKey ≠ some k) : LeavesStaged k leg tr := by
  rintro ctx accs args hact rfl
  simp [hact, Action.pairKey] at h

/-- What is staged after a promotion was staged before it, in the same bundle. -/
theorem staged_of_promoted {c : PairConfig} {now : UInt64} {leg : Leg} {v : UInt16}
    (h : (c.promotePendingFeeIfReady now).staged leg = some v) :
    c.promotePendingFeeIfReady now = c := by
  rcases promotePendingFeeIfReady_cases c now with heq | ⟨p, -, -, hnone, -⟩
  · exact heq
  · simp [PairConfig.staged, hnone] at h

theorem stagedProposed_step {env : Env} {ts : List RelayerTransition} {w w' : RelayerWorld}
    {act : Action} (hinv : StagedProposed ts w) (he : Effect env w act w') :
    StagedProposed (ts ++ [⟨w, act, w'⟩]) w' := by
  intro k c leg v hc hv
  cases he.pairStep k with
  | kept hkey heq =>
      obtain ⟨s, hsince, hready⟩ := hinv k c leg v (heq ▸ hc) hv
      exact ⟨s, hsince.later (leavesStaged_of_pairKey hkey), hready⟩
  | initialized _ _ _ _ _ hafter =>
      obtain rfl := Option.some.inj (hafter.symm.trans hc)
      simp [initialConfig, PairConfig.staged] at hv
  | @configured ctx accs args _ c₀ c' hk hs hbefore hafter =>
      obtain rfl := Option.some.inj (hafter.symm.trans hc)
      have hleg := (configure_fields hs.handled).legs leg
      cases hfee : args.fee leg with
      | none =>
          have hkept := hleg.unproposed hfee
          have hpromoted : (c₀.promotePendingFeeIfReady w.clock.slot).staged leg = some v :=
            hkept.staged.symm.trans hv
          rw [staged_of_promoted hpromoted] at hkept hpromoted
          obtain ⟨s, hsince, hready⟩ := hinv k c₀ leg v hbefore hpromoted
          refine ⟨s, hsince.later ?_, ?_⟩
          · rintro _ _ _ ⟨⟩ -
            exact hfee
          · intro p' hp'
            have hsome : c₀.staged leg ≠ none := by simp [hpromoted]
            obtain ⟨p, hp⟩ := PairConfig.exists_pendingFee hsome
            have hle := UInt64.le_iff_toNat_le.mp (hkept.later hsome p hp p' hp')
            have := hready p hp
            omega
      | some u =>
          by_cases hle : u ≤ (c₀.promotePendingFeeIfReady w.clock.slot).live leg
          · have hnone := (hleg.lowered u hfee hle).2
            simp [hnone] at hv
          · obtain ⟨-, hstaged, hready⟩ := hleg.raised u hfee (UInt16.not_le.mp hle)
            obtain rfl := Option.some.inj (hstaged.symm.trans hv)
            exact ⟨w.clock.slot, .here ts ⟨ctx, accs, args, rfl, hk, hfee, rfl⟩, hready⟩
  | accepted _ _ hbefore hafter =>
      obtain rfl := Option.some.inj (hafter.symm.trans hc)
      obtain ⟨s, hsince, hready⟩ := hinv k _ leg v hbefore hv
      refine ⟨s, hsince.later ?_, hready⟩
      rintro _ _ _ ⟨⟩

theorem stagedProposed_run {env : Env} (hl : env.Lawful) {w₀ w : RelayerWorld}
    {ts : List RelayerTransition} (hg : Genesis env w₀) (hr : RelayerRun env w₀ ts w) :
    StagedProposed ts w := by
  refine hr.history_invariant ?_ ?_
  · intro k c leg v hc
    simp [hg.pairConfigAt_none k] at hc
  · intro ts t a u hrun hinv hstep
    exact stagedProposed_step hinv (hstep.effect hl (run_effects hl hg.pinned hrun).1)

/-- A call never leaves a leg above where promotion put it. -/
theorem live_le_promoted {c c' : PairConfig} {leg : Leg} {proposed : Option UInt16} {now : UInt64}
    (h : LegConfigured c c' leg proposed now) : c'.live leg ≤ c.live leg := by
  cases proposed with
  | none =>
      rw [(h.unproposed rfl).live]
      exact UInt16.le_refl _
  | some v =>
      by_cases hle : v ≤ c.live leg
      · rw [(h.lowered v rfl hle).1]
        exact hle
      · rw [(h.raised v rfl (UInt16.not_le.mp hle)).1]
        exact UInt16.le_refl _

/-- The timelock of one call: a leg that ends higher than it began was promoted from a ripe
bundle. -/
theorem promoted_of_raised {c c' : PairConfig} {leg : Leg} {proposed : Option UInt16}
    {now : UInt64} (h : LegConfigured (c.promotePendingFeeIfReady now) c' leg proposed now)
    (hlt : c.live leg < c'.live leg) :
    ∃ p v, c.pendingFee = some p ∧ p.readySlot ≤ now ∧ p.leg leg = some v ∧ c'.live leg ≤ v := by
  have hle := live_le_promoted h
  rcases promotePendingFeeIfReady_cases c now with heq | ⟨p, hp, hready, -, hlive⟩
  · rw [heq] at hle
    exact absurd hlt (UInt16.not_lt.mpr hle)
  · rw [hlive leg] at hle
    cases hv : p.leg leg with
    | none =>
        rw [hv] at hle
        exact absurd hlt (UInt16.not_lt.mpr hle)
    | some v =>
        rw [hv] at hle
        exact ⟨p, v, hp, hready, hv, hle⟩

/-- A fee rises only to a value that was proposed for the same leg at least `feeTimelockSlots`
earlier and has been neither replaced nor cancelled since; a proposal at or below the live fee
takes effect at once and clears what is staged for its own leg, and its own leg only. -/
theorem fee_timelock {env : Env} (hl : env.Lawful) {w₀ w : RelayerWorld}
    {ts : List RelayerTransition} (hg : Genesis env w₀) (hr : RelayerRun env w₀ ts w) :
    (∀ before tr after k c c' leg, ts = before ++ tr :: after →
      pairConfigAt tr.pre.accounts k = some c → pairConfigAt tr.post.accounts k = some c' →
      c.live leg < c'.live leg →
      ∃ v s, c'.live leg ≤ v ∧ s.toNat + feeTimelockSlots.toNat ≤ tr.pre.clock.slot.toNat ∧
        Since (ProposesFee k leg v s) (LeavesStaged k leg) before) ∧
    ∀ tr ∈ ts, ∀ ctx accs args, tr.act = .configure ctx accs args →
      ∃ c c', pairConfigAt tr.pre.accounts accs.pairConfig = some c ∧
        pairConfigAt tr.post.accounts accs.pairConfig = some c' ∧
        ∀ leg v, args.fee leg = some v →
          v ≤ (c.promotePendingFeeIfReady tr.pre.clock.slot).live leg →
          c'.live leg = v ∧ c'.staged leg = none ∧
            ∀ other, other ≠ leg → LegConfigured (c.promotePendingFeeIfReady tr.pre.clock.slot) c'
              other (args.fee other) tr.pre.clock.slot := by
  constructor
  · rintro before tr after k c c' leg rfl hc hc' hlt
    obtain ⟨hbefore, -, -⟩ := hr.split
    have hinv := stagedProposed_run hl hg hbefore
    have he := (run_effects hl hg.pinned hr).2 tr (by simp)
    have hneq : ¬ c'.live leg = c.live leg := by
      intro heq
      rw [heq] at hlt
      exact UInt16.lt_irrefl _ hlt
    generalize tr.act = act at he
    cases he.pairStep k with
    | kept _ heq =>
        rw [heq, hc] at hc'
        exact absurd (by rw [Option.some.inj hc']) hneq
    | initialized _ _ _ _ hnone _ => simp [hnone] at hc
    | @configured _ _ _ _ c₀ _ _ hs hpre hpost =>
        obtain rfl := Option.some.inj (hpre.symm.trans hc)
        obtain rfl := Option.some.inj (hpost.symm.trans hc')
        obtain ⟨p, v, hp, hready, hv, hle⟩ :=
          promoted_of_raised ((configure_fields hs.handled).legs leg) hlt
        have hstaged : c₀.staged leg = some v := by
          rw [PairConfig.staged, hp, Option.bind_some, hv]
        obtain ⟨s, hsince, haged⟩ := hinv k c₀ leg v hpre hstaged
        refine ⟨v, s, hle, ?_, hsince⟩
        have := haged p hp
        have := UInt64.le_iff_toNat_le.mp hready
        omega
    | accepted _ _ hpre hpost =>
        obtain rfl := Option.some.inj (hpre.symm.trans hc)
        obtain rfl := Option.some.inj (hpost.symm.trans hc')
        exact absurd (by cases leg <;> rfl) hneq
  · intro tr htr ctx accs args hact
    have he := (run_effects hl hg.pinned hr).2 tr htr
    rw [hact] at he
    cases he.pairStep accs.pairConfig with
    | kept hkey _ => simp [Action.pairKey] at hkey
    | configured _ hs hpre hpost =>
        have hlegs := (configure_fields hs.handled).legs
        refine ⟨_, _, hpre, hpost, ?_⟩
        intro leg v hv hle
        obtain ⟨hlive, hstaged⟩ := (hlegs leg).lowered v hv hle
        exact ⟨hlive, hstaged, fun other _ => hlegs other⟩

/-- On the reference chain a fee rises, and the law finds the proposal. -/
theorem fee_timelock_deposit :
    ∃ before tr w, RelayerRun referenceEnv (genesis 1000000000) (before ++ [tr]) w ∧
      (before ++ [tr]).map Transition.act = depositActions ∧
      (∃ c, pairConfigAt tr.pre.accounts pairConfigKey = some c ∧ c.live .deposit = 50) ∧
      (∃ c, pairConfigAt w.accounts pairConfigKey = some c ∧ c.live .deposit = 100) ∧
      ∃ v s, 100 ≤ v ∧ s.toNat + feeTimelockSlots.toNat ≤ tr.pre.clock.slot.toNat ∧
        Since (ProposesFee pairConfigKey .deposit v s) (LeavesStaged pairConfigKey .deposit)
          before := by
  have hend : Ends (fun w => Ends (fun w' =>
      (pairConfigAt w.accounts pairConfigKey).map (PairConfig.live · .deposit) = some 50 ∧
      (pairConfigAt w'.accounts pairConfigKey).map (PairConfig.live · .deposit) = some 100)
      ((configureAction ⟨none, none, none⟩).apply referenceEnv.runtime w))
      (executed 1000000000 depositActions.dropLast) := by decide +kernel
  have htrusted : ∀ act ∈ depositActions.dropLast, act.Trusted referenceEnv := by decide +kernel
  obtain ⟨ts, w, hr, hacts, hlast⟩ := run_of_executed htrusted hend
  obtain ⟨w', happly, hpre, hpost⟩ := hlast.exists_ok
  obtain ⟨c, hc, hlive⟩ := Option.map_eq_some_iff.mp hpre
  obtain ⟨c', hc', hlive'⟩ := Option.map_eq_some_iff.mp hpost
  have hrun : RelayerRun referenceEnv (genesis 1000000000)
      (ts ++ [⟨w, configureAction ⟨none, none, none⟩, w'⟩]) w' := hr.snoc ⟨trivial, happly⟩
  have hlt : c.live .deposit < c'.live .deposit := by
    rw [hlive, hlive']
    decide
  have hlaw := (fee_timelock referenceEnv_lawful (genesis_ok _) hrun).1 ts _ [] pairConfigKey c c'
    .deposit rfl hc hc' hlt
  rw [hlive'] at hlaw
  refine ⟨ts, _, w', hrun, ?_, ⟨c, hc, hlive⟩, ⟨c', hc', hlive'⟩, hlaw⟩
  rw [List.map_append, hacts]
  rfl

end FogoYield.Relayer
