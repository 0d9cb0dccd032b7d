import FogoYield.Verification.Relayer.Handlers

/-! # What `configure` does to a pair config

Field by field, and for the fees leg by leg: a leg's live fee and staged value depend on the
proposal for that leg alone. -/

namespace FogoYield.Relayer

open FogoYield.Solana

/-! ## Legs -/

/-- The live fee of a leg. -/
def PairConfig.live (c : PairConfig) : Leg → UInt16
  | .deposit => c.depositFeeBps
  | .withdraw => c.withdrawFeeBps

/-- The value staged for a leg. -/
def PairConfig.staged (c : PairConfig) (leg : Leg) : Option UInt16 :=
  c.pendingFee.bind (·.leg leg)

def ConfigureArgs.fee (args : ConfigureArgs) : Leg → Option UInt16
  | .deposit => args.depositFeeBps
  | .withdraw => args.withdrawFeeBps

theorem PendingFee.leg_setLeg_self (p : PendingFee) (v : Option UInt16) (leg : Leg) :
    (p.setLeg v leg).leg leg = v := by
  cases leg <;> rfl

theorem PendingFee.leg_setLeg_of_ne (p : PendingFee) (v : Option UInt16) {leg leg' : Leg}
    (h : leg' ≠ leg) : (p.setLeg v leg).leg leg' = p.leg leg' := by
  cases leg <;> cases leg' <;> simp_all [PendingFee.setLeg, PendingFee.leg]

theorem PendingFee.readySlot_setLeg (p : PendingFee) (v : Option UInt16) (leg : Leg) :
    (p.setLeg v leg).readySlot = p.readySlot := by
  cases leg <;> rfl

theorem PendingFee.leg_of_isEmpty {p : PendingFee} (h : p.isEmpty = true) (leg : Leg) :
    p.leg leg = none := by
  simp only [PendingFee.isEmpty, Bool.and_eq_true, Option.isNone_iff_eq_none] at h
  cases leg
  · exact h.1
  · exact h.2

/-- An empty bundle is dropped, which no leg can tell. -/
theorem staged_drop_empty (p : PendingFee) (leg : Leg) :
    (if p.isEmpty then none else some p).bind (·.leg leg) = p.leg leg := by
  split
  · rename_i h
    exact (PendingFee.leg_of_isEmpty h leg).symm
  · rfl

/-! ## The fields that are never written again -/

/-- The fields `initialize` sets for good. -/
structure SameStatics (c c' : PairConfig) : Prop where
  baseMint : c'.baseMint = c.baseMint
  assetMint : c'.assetMint = c.assetMint
  nttBaseProgram : c'.nttBaseProgram = c.nttBaseProgram
  nttAssetProgram : c'.nttAssetProgram = c.nttAssetProgram
  intentPrograms : c'.intentPrograms = c.intentPrograms
  relayerAuthorityBump : c'.relayerAuthorityBump = c.relayerAuthorityBump
  bump : c'.bump = c.bump

theorem SameStatics.refl (c : PairConfig) : SameStatics c c := ⟨rfl, rfl, rfl, rfl, rfl, rfl, rfl⟩

theorem SameStatics.trans {c c' c'' : PairConfig} (h : SameStatics c c')
    (h' : SameStatics c' c'') : SameStatics c c'' :=
  ⟨h'.1.trans h.1, h'.2.trans h.2, h'.3.trans h.3, h'.4.trans h.4, h'.5.trans h.5,
    h'.6.trans h.6, h'.7.trans h.7⟩

/-- What the fee half of `configure` leaves alone. -/
structure FeesOnly (c c' : PairConfig) : Prop where
  statics : SameStatics c c'
  authority : c'.authority = c.authority
  pendingAuthority : c'.pendingAuthority = c.pendingAuthority
  feeVault : c'.feeVault = c.feeVault

theorem FeesOnly.refl (c : PairConfig) : FeesOnly c c := ⟨.refl c, rfl, rfl, rfl⟩

theorem FeesOnly.trans {c c' c'' : PairConfig} (h : FeesOnly c c') (h' : FeesOnly c' c'') :
    FeesOnly c c'' :=
  ⟨h.1.trans h'.1, h'.2.trans h.2, h'.3.trans h.3, h'.4.trans h.4⟩

theorem promotePendingFeeIfReady_feesOnly (c : PairConfig) (now : UInt64) :
    FeesOnly c (c.promotePendingFeeIfReady now) := by
  unfold PairConfig.promotePendingFeeIfReady
  split
  · exact .refl _
  · split
    · exact .refl _
    · exact ⟨⟨rfl, rfl, rfl, rfl, rfl, rfl, rfl⟩, rfl, rfl, rfl⟩

/-! ## Promotion -/

/-- Promotion either leaves the fees alone, or the bundle was ripe: every staged value went live
and the bundle is gone. -/
theorem promotePendingFeeIfReady_cases (c : PairConfig) (now : UInt64) :
    c.promotePendingFeeIfReady now = c ∨
      ∃ p, c.pendingFee = some p ∧ p.readySlot ≤ now ∧
        (c.promotePendingFeeIfReady now).pendingFee = none ∧
        ∀ leg, (c.promotePendingFeeIfReady now).live leg = (p.leg leg).getD (c.live leg) := by
  unfold PairConfig.promotePendingFeeIfReady
  split
  · exact .inl rfl
  · rename_i p hp
    split
    · exact .inl rfl
    · rename_i hready
      refine .inr ⟨p, hp, UInt64.not_lt.mp hready, rfl, ?_⟩
      intro leg
      cases leg <;> rfl

/-! ## One proposal -/

/-- A leg that was not touched: what was staged for it is not due any earlier. -/
structure LegKept (c c' : PairConfig) (leg : Leg) : Prop where
  live : c'.live leg = c.live leg
  staged : c'.staged leg = c.staged leg
  later : c.staged leg ≠ none →
    ∀ p ∈ c.pendingFee, ∀ p' ∈ c'.pendingFee, p.readySlot ≤ p'.readySlot

/-- What a leg shows after a proposal for it, or none: a proposal at or below the live fee takes
effect and clears what was staged, a higher one is staged. -/
structure LegConfigured (c c' : PairConfig) (leg : Leg) (proposed : Option UInt16)
    (now : UInt64) : Prop where
  unproposed : proposed = none → LegKept c c' leg
  lowered : ∀ v, proposed = some v → v ≤ c.live leg → c'.live leg = v ∧ c'.staged leg = none
  raised : ∀ v, proposed = some v → c.live leg < v →
    c'.live leg = c.live leg ∧ c'.staged leg = some v ∧
      ∀ p ∈ c'.pendingFee, now.toNat + feeTimelockSlots.toNat ≤ p.readySlot.toNat

theorem LegKept.refl (c : PairConfig) (leg : Leg) : LegKept c c leg := by
  refine ⟨rfl, rfl, ?_⟩
  intro _ p hp p' hp'
  rw [Option.mem_unique hp hp']
  exact UInt64.le_refl _

theorem PairConfig.exists_pendingFee {c : PairConfig} {leg : Leg} (h : c.staged leg ≠ none) :
    ∃ p, p ∈ c.pendingFee := by
  cases hp : c.pendingFee with
  | none => simp [PairConfig.staged, hp] at h
  | some p => exact ⟨p, rfl⟩

theorem LegKept.trans {c c' c'' : PairConfig} {leg : Leg} (h : LegKept c c' leg)
    (h' : LegKept c' c'' leg) : LegKept c c'' leg := by
  refine ⟨h'.live.trans h.live, h'.staged.trans h.staged, ?_⟩
  intro hs p hp p'' hp''
  have hs' : c'.staged leg ≠ none := by rwa [h.staged]
  obtain ⟨p', hp'⟩ := PairConfig.exists_pendingFee hs'
  exact UInt64.le_trans (h.later hs p hp p' hp') (h'.later hs' p' hp' p'' hp'')

theorem LegConfigured.then_kept {c c' c'' : PairConfig} {leg : Leg} {proposed : Option UInt16}
    {now : UInt64} (h : LegConfigured c c' leg proposed now) (h' : LegKept c' c'' leg) :
    LegConfigured c c'' leg proposed now where
  unproposed hn := (h.unproposed hn).trans h'
  lowered v hv hle := by
    obtain ⟨hlive, hstaged⟩ := h.lowered v hv hle
    exact ⟨h'.live.trans hlive, h'.staged.trans hstaged⟩
  raised v hv hlt := by
    obtain ⟨hlive, hstaged, hready⟩ := h.raised v hv hlt
    refine ⟨h'.live.trans hlive, h'.staged.trans hstaged, ?_⟩
    intro p'' hp''
    have hs' : c'.staged leg ≠ none := by simp [hstaged]
    obtain ⟨p', hp'⟩ := PairConfig.exists_pendingFee hs'
    exact (hready p' hp').trans (UInt64.le_iff_toNat_le.mp (h'.later hs' p' hp' p'' hp''))

theorem LegKept.then_configured {c c' c'' : PairConfig} {leg : Leg} {proposed : Option UInt16}
    {now : UInt64} (h : LegKept c c' leg) (h' : LegConfigured c' c'' leg proposed now) :
    LegConfigured c c'' leg proposed now where
  unproposed hn := h.trans (h'.unproposed hn)
  lowered v hv hle := h'.lowered v hv (by rwa [h.live])
  raised v hv hlt := by
    obtain ⟨hlive, hstaged, hready⟩ := h'.raised v hv (by rwa [h.live])
    exact ⟨hlive.trans h.live, hstaged, hready⟩

theorem le_max_slot (x y : UInt64) : x ≤ max x y ∧ y ≤ max x y := by
  simp only [UInt64.le_iff_toNat_le, max]
  split <;> simp_all
  omega

/-- `propose_fee_change` in terms of the leg it is given. -/
theorem proposeFeeChange_spec {v live live' : UInt16} {bundle bundle' : Option PendingFee}
    {leg : Leg} {now : UInt64}
    (h : proposeFeeChange v live bundle leg now = .ok (live', bundle')) :
    (v ≤ live → live' = v ∧ bundle'.bind (·.leg leg) = none) ∧
      (live < v → live' = live ∧ bundle'.bind (·.leg leg) = some v ∧
        ∀ p ∈ bundle', now.toNat + feeTimelockSlots.toNat ≤ p.readySlot.toNat) ∧
      (∀ leg', leg' ≠ leg → bundle'.bind (·.leg leg') = bundle.bind (·.leg leg')) ∧
      ∀ p ∈ bundle, ∀ p' ∈ bundle', p.readySlot ≤ p'.readySlot := by
  unfold proposeFeeChange at h
  split at h
  · rename_i hle
    have hnlt : ¬ live < v := UInt16.not_lt.mpr hle
    cases bundle with
    | none =>
        obtain ⟨rfl, rfl⟩ := Prod.mk.inj (pure_eq_ok.mp h)
        exact ⟨fun _ => ⟨rfl, rfl⟩, fun hlt => absurd hlt hnlt, fun _ _ => rfl, by simp⟩
    | some p =>
        obtain ⟨rfl, rfl⟩ := Prod.mk.inj (pure_eq_ok.mp h)
        refine ⟨fun _ => ⟨rfl, ?_⟩, fun hlt => absurd hlt hnlt, ?_, ?_⟩
        · rw [staged_drop_empty, PendingFee.leg_setLeg_self]
        · intro leg' hne
          rw [staged_drop_empty, PendingFee.leg_setLeg_of_ne _ _ hne]
          rfl
        · intro q hq q' hq'
          obtain rfl := Option.mem_some.mp hq
          split at hq'
          · simp at hq'
          · rw [← Option.mem_some.mp hq', PendingFee.readySlot_setLeg]
            exact UInt64.le_refl _
  · rename_i hgt
    simp only [bind_eq_ok, liftOption_eq_ok, checkedAdd_eq_some, pure_eq_ok] at h
    obtain ⟨ready, hready, heq⟩ := h
    obtain ⟨rfl, rfl⟩ := Prod.mk.inj heq
    refine ⟨fun hle => absurd hle hgt, fun _ => ⟨rfl, ?_, ?_⟩, ?_, ?_⟩
    · simp [PendingFee.leg_setLeg_self]
    · intro p hp
      rw [← Option.mem_some.mp hp, PendingFee.readySlot_setLeg, hready,
        ← UInt64.le_iff_toNat_le]
      exact (le_max_slot _ _).2
    · intro leg' hne
      rw [Option.bind_some, PendingFee.leg_setLeg_of_ne _ _ hne]
      cases bundle <;> cases leg' <;> rfl
    · intro p hp p' hp'
      rw [← Option.mem_some.mp hp', PendingFee.readySlot_setLeg, Option.mem_def.mp hp]
      exact (le_max_slot _ _).1

/-- A proposal configures its own leg and keeps the other. -/
theorem proposeFee_spec {c c' : PairConfig} {leg : Leg} {proposed : Option UInt16} {now : UInt64}
    (h : c.proposeFee leg proposed now = .ok c') :
    FeesOnly c c' ∧ LegConfigured c c' leg proposed now ∧
      ∀ leg', leg' ≠ leg → LegKept c c' leg' := by
  cases proposed with
  | none =>
      obtain rfl := pure_eq_ok.mp h
      exact ⟨.refl _, ⟨fun _ => .refl _ _, by simp, by simp⟩, fun _ _ => .refl _ _⟩
  | some v =>
      have hkey : ∃ live bundle,
          proposeFeeChange v (c.live leg) c.pendingFee leg now = .ok (live, bundle) ∧
          FeesOnly c c' ∧ c'.live leg = live ∧ c'.pendingFee = bundle ∧
          ∀ leg', leg' ≠ leg → c'.live leg' = c.live leg' := by
        cases leg <;>
          simp only [PairConfig.proposeFee, PairConfig.proposeDepositFee,
            PairConfig.proposeWithdrawFee, bind_eq_ok, pure_eq_ok] at h <;>
          obtain ⟨⟨live, bundle⟩, hp, rfl⟩ := h <;>
          refine ⟨live, bundle, hp, ⟨⟨rfl, rfl, rfl, rfl, rfl, rfl, rfl⟩, rfl, rfl, rfl⟩, rfl, rfl,
            ?_⟩ <;>
          · intro leg' hne
            cases leg' <;> first | rfl | exact absurd rfl hne
      obtain ⟨live, bundle, hp, hsame, rfl, rfl, hlive⟩ := hkey
      obtain ⟨hlow, hraise, hother, hlater⟩ := proposeFeeChange_spec hp
      refine ⟨hsame, ⟨by simp, ?_, ?_⟩,
        fun leg' hne => ⟨hlive leg' hne, hother leg' hne, fun _ => hlater⟩⟩
      · intro u hu hle
        obtain rfl := Option.some.inj hu
        exact hlow hle
      · intro u hu hlt
        obtain rfl := Option.some.inj hu
        exact hraise hlt

/-! ## The whole handler -/

/-- What a proposal, or none, does to the pending authority. -/
def AuthorityProposed (c c' : PairConfig) : Option Pubkey → Prop
  | none => c'.pendingAuthority = c.pendingAuthority
  | some proposed => if proposed = Pubkey.default then c'.pendingAuthority = none
    else proposed ≠ c.authority ∧ c'.pendingAuthority = some proposed

/-- The effect of `configure` on a config. -/
structure Configured (c c' : PairConfig) (assetAta : Pubkey) (feeVault : Option Pubkey)
    (args : ConfigureArgs) (now : UInt64) : Prop where
  statics : SameStatics c c'
  authority : c'.authority = c.authority
  legs : ∀ leg, LegConfigured (c.promotePendingFeeIfReady now) c' leg (args.fee leg) now
  vault : feeVault = none ∧ c'.feeVault = c.feeVault ∨
    feeVault = some c'.feeVault ∧ c'.feeVault ≠ assetAta
  pending : AuthorityProposed c c' args.newAuthority
  valid : c'.validate = .ok ()

theorem setFeeVault_spec {c c' : PairConfig} {assetAta : Pubkey} {feeVault : Option Pubkey}
    (h : c.setFeeVault assetAta feeVault = .ok c') :
    c' = { c with feeVault := c'.feeVault } ∧ (feeVault = none ∧ c'.feeVault = c.feeVault ∨
      feeVault = some c'.feeVault ∧ c'.feeVault ≠ assetAta) := by
  cases feeVault with
  | none =>
      obtain rfl := pure_eq_ok.mp h
      exact ⟨rfl, .inl ⟨rfl, rfl⟩⟩
  | some vault =>
      simp only [PairConfig.setFeeVault, bind_eq_ok, require_eq_ok, pure_eq_ok,
        exists_const] at h
      obtain ⟨hne, rfl⟩ := h
      exact ⟨rfl, .inr ⟨rfl, hne⟩⟩

theorem proposeAuthority_spec {c c' : PairConfig} {newAuthority : Option Pubkey}
    (h : c.proposeAuthority newAuthority = .ok c') :
    c' = { c with pendingAuthority := c'.pendingAuthority } ∧
      AuthorityProposed c c' newAuthority := by
  cases newAuthority with
  | none =>
      obtain rfl := pure_eq_ok.mp h
      exact ⟨rfl, rfl⟩
  | some proposed =>
      unfold PairConfig.proposeAuthority at h
      by_cases hd : proposed = Pubkey.default
      · simp only [hd, if_true, pure_eq_ok] at h
        subst h
        simp [AuthorityProposed, hd]
      · simp only [hd, if_false, bind_eq_ok, require_eq_ok, pure_eq_ok, exists_const] at h
        obtain ⟨hne, rfl⟩ := h
        simp [AuthorityProposed, hd, hne]

theorem configure_fields {c c' : PairConfig} {assetAta : Pubkey} {feeVault : Option Pubkey}
    {args : ConfigureArgs} {now : UInt64}
    (h : c.configure assetAta feeVault args now = .ok c') :
    Configured c c' assetAta feeVault args now := by
  simp only [PairConfig.configure, bind_eq_ok, pure_eq_ok] at h
  obtain ⟨c₁, h₁, c₂, h₂, c₃, h₃, c₄, h₄, ⟨⟩, hvalid, rfl⟩ := h
  obtain ⟨hs₁, hdep, hkeep₁⟩ := proposeFee_spec h₁
  obtain ⟨hs₂, hwith, hkeep₂⟩ := proposeFee_spec h₂
  obtain ⟨he₃, hvault⟩ := setFeeVault_spec h₃
  obtain ⟨he₄, hpending⟩ := proposeAuthority_spec h₄
  have hs := ((promotePendingFeeIfReady_feesOnly c now).trans hs₁).trans hs₂
  have hauth : c₃.authority = c.authority := by
    rw [he₃]
    exact hs.authority
  have hpend : c₃.pendingAuthority = c.pendingAuthority := by
    rw [he₃]
    exact hs.pendingAuthority
  -- the last two steps keep the static fields and both legs
  have hstatics : SameStatics c₂ c₄ := by
    rw [he₄, he₃]
    exact ⟨rfl, rfl, rfl, rfl, rfl, rfl, rfl⟩
  have hlegs : ∀ leg, LegKept c₂ c₄ leg := by
    intro leg
    have hbundle : c₄.pendingFee = c₂.pendingFee := by rw [he₄, he₃]
    refine ⟨?_, by rw [PairConfig.staged, hbundle, PairConfig.staged], ?_⟩
    · rw [he₄, he₃]
      cases leg <;> rfl
    · rw [hbundle]
      exact (LegKept.refl c₂ leg).later
  have hvault₄ : c₄.feeVault = c₃.feeVault := by rw [he₄]
  have hvault₂ : c₂.feeVault = c.feeVault := hs.feeVault
  refine ⟨hs.statics.trans hstatics, ?_, ?_, ?_, ?_, hvalid⟩
  · rw [he₄]
    exact hauth
  · intro leg
    cases leg with
    | deposit => exact hdep.then_kept ((hkeep₂ .deposit (by simp)).trans (hlegs .deposit))
    | withdraw => exact (hkeep₁ .withdraw (by simp)).then_configured (hwith.then_kept (hlegs _))
  · rw [hvault₄, ← hvault₂]
    exact hvault
  · cases hnew : args.newAuthority <;>
      simpa only [AuthorityProposed, hnew, hauth, hpend] using hpending

end FogoYield.Relayer
